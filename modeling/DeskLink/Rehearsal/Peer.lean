import DeskLink.Client.Attempt
import DeskLink.Server.Host

/-!
# Rehearsals against a scripted peer

One part of the library stands at one end of an in-memory connection, and whoever rehearses it
plays the other end by hand: writes bytes and frames, reads what comes back, hangs up. Time is
virtual. It stands still while the part can move, and passes only when it is asked to.

Loops are bounded by `patience`, which is far above the number of moves of any rehearsal.
-/

namespace DeskLink.Rehearsal

open Handshake (Conduct Registrar)
open Session (Worker Outlet Ending)
open Server (Host)
open Client (Guest Attempt)

/-- A bound on the number of moves. -/
def patience : Nat := 1000000000000

/-- The part that is rehearsed. -/
inductive Part where
  | conduct (c : Conduct) (r : Registrar)
  | session (w : Worker) (out : Outlet)
  /-- A server with one connection. -/
  | host (h : Host)
  /-- A client that connects and then waits for its session to end. -/
  | guest (g : Guest) (a : Attempt) (w : Option Guest.Waiting)

/-- A part, its connection, and what its peer knows. -/
structure Stage where
  part : Part
  inject : Injector
  /-- How dialling is answered. -/
  dial : Client.DialReply
  /-- The part's end of the connection. -/
  link : Endpoint
  now : Instant
  /-- Whether the peer has hung up. -/
  gone : Bool
  /-- What the peer has read. -/
  reader : Frame.Reader
  /-- What was asked of the registry. -/
  asked : List Handshake.Effect
  injected : List Event
  progress : List Snapshot

namespace Stage

/-- A part with nothing done yet, over a connection of this capacity. -/
def new (part : Part) (inject : Injector) (dial : Client.DialReply) (capacity : Nat) : Stage :=
  ⟨part, inject, dial, ⟨.new capacity, .new capacity⟩, 0, false, .new 4294967295, [], [], []⟩

/-! ## The part -/

/-- Notes what a session tells about itself. -/
def note (s : Stage) : Session.Effect → Stage
  | .injected e =>
    match s.inject e with
    | .ok _ => { s with injected := s.injected ++ [e] }
    | .error _ => s
  | .progress p => { s with progress := s.progress ++ [p] }
  | _ => s

/-- Notes what a handshake asked of the registry. -/
def noteAsked (s : Stage) : Handshake.Effect → Stage
  | .reserved => { s with asked := s.asked ++ [.reserved] }
  | .registered peer version => { s with asked := s.asked ++ [.registered peer version] }
  | _ => s

/-- One move of a client: of its session, or else of its attempt. -/
def moveGuest (s : Stage) (g : Guest) (a : Attempt) (w : Option Guest.Waiting) : Option Stage :=
  match g.step 0 s.now s.link with
  | some (g, link) => some { s with part := .guest g a w, link }
  | none =>
    (a.step g s.now s.dial s.link).map fun (g, a, link) ↦
      let w := match a.result? with
        | some (.ok id) => some (g.wait id)
        | _ => w
      { s with part := .guest g a w, link }

def move (s : Stage) : Option Stage :=
  match s.part with
  | .conduct c r =>
    (c.move s.now r s.link).map fun (c, effect, link) ↦
      { s with part := .conduct c r, link }.noteAsked effect
  | .session w out =>
    (w.move s.now s.inject out s.link).map fun (w, effect, out, link) ↦
      { s with part := .session w out, link }.note effect
  | .host h => (h.step 0 s.now s.link).map fun (h, link) ↦ { s with part := .host h, link }
  | .guest g a w => s.moveGuest g a w

/-- Whether the part has come to its end. -/
def finished (s : Stage) : Bool :=
  match s.part with
  | .conduct c _ => c.result?.isSome
  | .session w _ => w.result?.isSome
  | .host h => h.connections.all (·.result?.isSome)
  | .guest g a w =>
    match a.result? with
    | none => false
    | some (.error _) => true
    | some (.ok _) => (w.bind (Guest.Waiting.result? g)).isSome

/-- The instant at which the part moves by itself. -/
def wakeup? (s : Stage) : Option Instant :=
  match s.part with
  | .conduct c _ => c.wakeup?
  | .session w _ => w.wakeup?
  | .host h => h.connections.head?.bind (·.wakeup?)
  | .guest g a _ => a.wakeup? <|> g.runs.head?.bind (·.worker.wakeup?)

/-- Lets the part move at most so often, until it can only wait. -/
def settleWithin : Nat → Stage → Stage
  | 0, s => s
  | n + 1, s =>
    match s.move with
    | some s => settleWithin n s
    | none => s

/-- Lets the part move until it can only wait. -/
def settle (s : Stage) : Stage := settleWithin patience s

/-- Lets time pass at most so often, until something holds or the part cannot move by itself. -/
def waitWithin (enough : Stage → Bool) : Nat → Stage → Stage
  | 0, s => s
  | n + 1, s =>
    let s := s.settle
    if enough s then s
    else match s.wakeup? with
      | some t => waitWithin enough n { s with now := max (s.now + 1) t }
      | none => s

/-- Lets time pass until the part has come to its end. -/
def waitEnd (s : Stage) : Stage := waitWithin finished patience s

/-! ## The peer -/

/-- Puts bytes into the connection, letting the part move when there is no room. -/
def writeWithin : Nat → Stage → Bytes → Stage
  | 0, s, _ => s
  | n + 1, s, bytes =>
    if s.gone || bytes.isEmpty then s
    else match s.link.incoming.writeReply with
      | .failed _ => s
      | .accepts room =>
        let incoming := s.link.incoming.append (bytes.take room)
        writeWithin n { s with link := { s.link with incoming } } (bytes.drop room)
      | .notReady =>
        let s := s.settle
        if s.link.incoming.writeReply = .notReady then s else writeWithin n s bytes

def write (s : Stage) (b : Bytes) : Stage := writeWithin patience s b

/-- The peer will write no more. -/
def halfClose (s : Stage) : Stage :=
  { s with link := { s.link with incoming := s.link.incoming.close } }

/-- The peer is gone. -/
def hangUp (s : Stage) : Stage := { s with gone := true, link := s.link.drop }

/-- The frames that the peer's reader holds. -/
def takeFrames : Nat → Frame.Reader → List Bytes → List Bytes × Frame.Reader
  | 0, r, out => (out.reverse, r)
  | n + 1, r, out =>
    match r.takeFrame with
    | .ok (some (body, r)) => takeFrames n r (body :: out)
    | _ => (out.reverse, r)

/-- The peer reads what has been written; gives the frames that are complete. -/
def read (s : Stage) : List (Except Envelope.DecodeError Envelope) × Stage :=
  if s.gone then ([], s)
  else
    let b := s.link.outgoing.buffered
    let link := { s.link with outgoing := s.link.outgoing.consume b.length }
    let (frames, reader) := takeFrames patience (s.reader.feed b) []
    (frames.map Envelope.decode, { s with link, reader })

/-! ## Others -/

/-- Leaves a command for the session, unless nobody can any more; gives whether it was taken. -/
def command (s : Stage) (reason : CloseReason) : Bool × Stage :=
  match s.part with
  | .session w out =>
    if out.commands.abandoned then (false, s)
    else
      let (posted, commands) := out.commands.post reason
      (posted = .taken, { s with part := .session w { out with commands } })
  | _ => (false, s)

/-- Nobody will leave a command any more. -/
def dropCommands (s : Stage) : Stage :=
  match s.part with
  | .session w out =>
    { s with part := .session w { out with commands := { out.commands with abandoned := true } } }
  | _ => s

/-- Puts an event into the session's queue, without waiting. -/
def push (s : Stage) (e : Event) : Except PushError PushOutcome × Stage :=
  match s.part with
  | .session w out =>
    match out.queue.tryPush e with
    | .ok (outcome, queue) => (.ok outcome, { s with part := .session w { out with queue } })
    | .error why => (.error why, s)
  | _ => (.error (.closed e), s)

/-- What became of an event given to the client. -/
inductive Sent where
  | done (outcome : PushOutcome)
  | refused (why : Failure)
  /-- There is no connection. -/
  | nobody
  /-- There was no room. -/
  | pending

/-- Tries once to give an event to the client's session. -/
def handOnce (s : Stage) (key : Nat) (id : SessionId) (e : Event) : Sent × Stage :=
  match s.part with
  | .guest g a w =>
    let (handed, g) := g.hand key id e
    let s := { s with part := .guest g a w }
    match handed with
    | .done outcome => (.done outcome, s)
    | .refused why => (.refused why, s)
    | .wait => (.pending, s)
  | _ => (.nobody, s)

/-- Gives an event to the client, which waits for room as long as it can move; no time passes. -/
def send (s : Stage) (e : Event) : Sent × Stage :=
  match s.part with
  | .guest g _ _ =>
    match g.target? with
    | none => (.nobody, s)
    | some (id, key) =>
      match s.handOnce key id e with
      | (.pending, s) => s.settle.handOnce key id e
      | r => r
  | _ => (.nobody, s)

/-- Whether the client's session with this key has ended. -/
def sessionEnded (key : Nat) (s : Stage) : Bool :=
  match s.part with
  | .guest g _ _ => (g.ended? key).isSome
  | _ => false

/-- Disconnects the client and waits for the end of the session; none when time does not bring
it. -/
def disconnect (s : Stage) (id : SessionId) : Option (Except Failure Unit) × Stage :=
  match s.part with
  | .guest g a w =>
    match g.disconnect id with
    | .error why => (some (.error why), s)
    | .ok (key, g) =>
      let s := waitWithin (sessionEnded key) patience { s with part := .guest g a w }
      (if s.sessionEnded key then some (.ok ()) else none, s)
  | _ => (none, s)

end Stage

end DeskLink.Rehearsal
