import DeskLink.Client.Keeper
import DeskLink.Network.Resolver
import DeskLink.Rehearsal.Peer

/-!
# Rehearsals of a server with its clients

A `World` is a server and some clients on an in-memory network, with nobody else on it. It stands
still between the acts: after each of them everybody moves until nobody can without time passing.
Time passes only while somebody waits for a client to give up, and then it passes for everybody.

Whoever can move does so in this order: the server's connections, the oldest first; the clients'
sessions; their attempts to connect; their keepers; and when nobody else can, the events on their
way to the focused session.
-/

namespace DeskLink.Rehearsal

open Server (Host Pump)
open Client (Guest Attempt Keeper Backoff Reconnection)

/-- A client and what it is busy with. -/
structure Member where
  guest : Guest
  policy : Backoff
  /-- A call that is to connect it. -/
  attempt : Option Attempt
  keeper : Option Keeper
  /-- Whether its keeper has been cancelled. -/
  cancelled : Bool

/-- The instants at which a client moves by itself. -/
def Member.wakeups (m : Member) : List Instant :=
  m.guest.runs.filterMap (·.worker.wakeup?) ++ (m.attempt.bind (·.wakeup?)).toList
    ++ (m.keeper.bind (·.wakeup?)).toList

/-- A server with its clients. -/
structure World where
  host : Host
  members : List Member
  /-- The clients' ends of all connections, by number. -/
  streams : List Endpoint
  /-- Captured events on their way. -/
  pump : Option Pump
  /-- Where the server listens besides. -/
  listening : List SocketAddress
  now : Instant

namespace World

/-- The address at which the server is reached. -/
def address : String := "server"

/-- What a direction of a connection holds. -/
def pipeCapacity : Nat := 65536

/-- A connection that nobody holds. -/
def nothing : Endpoint := ⟨.new 0, .new 0⟩

/-- A server with clients that have done nothing. -/
def new (host : Host) (clients : List (Guest × Backoff)) : World :=
  ⟨host, clients.map fun (g, p) ↦ ⟨g, p, none, none, false⟩, [], none, [], 0⟩

/-! ## Moves -/

/-- The client's end of the connection with this number. -/
def stream (w : World) (k : Nat) : Endpoint := w.streams[k]?.getD nothing

/-- Sets the client's end of a connection. -/
def setStream (w : World) (k : Nat) (e : Endpoint) : World :=
  { w with streams := w.streams.set k e }

def setMember (w : World) (i : Nat) (m : Member) : World :=
  { w with members := w.members.set i m }

def firstOf {α : Type} (f : α → Option World) (l : List α) : Option World := l.findSome? f

/-- How dialling is answered: by a new connection, as long as the server accepts any. -/
def dial (w : World) : Client.DialReply :=
  if w.host.stopped then .failed "nobody is accepting" else .connected w.streams.length

/-- Opens the connection that a client has been given, if it is a new one. -/
def openNew (w : World) (held : Option Nat) : World :=
  if held = some w.streams.length then
    { w with
      host := w.host.accept w.now
      streams := w.streams ++ [⟨.new pipeCapacity, .new pipeCapacity⟩] }
  else w

/-- The end of the connection that somebody holds. -/
def heldStream (w : World) (held : Option Nat) : Endpoint :=
  (held.map w.stream).getD nothing

/-- Puts the end of a connection back. -/
def putBack (w : World) (held : Option Nat) (e : Endpoint) : World :=
  match held with
  | some k => w.setStream k e
  | none => w

/-- One move of the server on the connection with this number. -/
def moveHost (w : World) (k : Nat) : Option World :=
  (w.host.step k w.now (w.stream k).flip).map fun (host, e) ↦
    { w with host }.setStream k e.flip

def moveRun (w : World) (i : Nat) (m : Member) (key : Nat) : Option World :=
  match m.guest.runs[key]? with
  | none => none
  | some r =>
    (m.guest.step key w.now (w.stream r.stream)).map fun (guest, e) ↦
      (w.setStream r.stream e).setMember i { m with guest }

def moveAttempt (w : World) (i : Nat) (m : Member) : Option World :=
  match m.attempt with
  | none => none
  | some a =>
    (a.step m.guest w.now w.dial (w.heldStream a.stream?)).map fun (guest, b, e) ↦
      ((w.putBack a.stream? e).openNew b.stream?).setMember i { m with guest, attempt := some b }

def moveKeeper (w : World) (i : Nat) (m : Member) : Option World :=
  match m.keeper with
  | none => none
  | some k =>
    (k.step m.guest w.now m.cancelled 0 w.dial (w.heldStream k.stream?)).map fun (guest, l, e) ↦
      ((w.putBack k.stream? e).openNew l.stream?).setMember i { m with guest, keeper := some l }

def moveMember (w : World) (i : Nat) : Option World :=
  match w.members[i]? with
  | none => none
  | some m =>
    firstOf (w.moveRun i m) (List.range m.guest.runs.length) <|> w.moveAttempt i m
      <|> w.moveKeeper i m

/-- One move of anybody, captured events apart. -/
def move (w : World) : Option World :=
  firstOf w.moveHost (List.range w.streams.length)
    <|> firstOf w.moveMember (List.range w.members.length)

/-- Hands captured events on, so many at most, until one has to wait. -/
def pumpWithin : Nat → World → Pump → World
  | 0, w, p => { w with pump := some p }
  | n + 1, w, p =>
    match p.step w.host.registry w.host.pin w.host.outlets with
    | some (p, outlets) => pumpWithin n { w with host := { w.host with outlets } } p
    | none => { w with pump := some p }

/-- Hands captured events on until one has to wait; none when that is so already. -/
def movePump (w : World) : Option World :=
  w.pump.bind fun p ↦
    (p.step w.host.registry w.host.pin w.host.outlets).map fun (p, outlets) ↦
      pumpWithin patience { w with host := { w.host with outlets } } p

/-- Lets everybody move at most so often. -/
def settleWithin : Nat → World → World
  | 0, w => w
  | n + 1, w =>
    match w.move <|> w.movePump with
    | some w => settleWithin n w
    | none => w

/-- Lets everybody move until nobody can. -/
def settle (w : World) : World := settleWithin patience w

/-! ## Time -/

/-- The next instant at which somebody moves by itself. -/
def wakeup? (w : World) : Option Instant :=
  let all := w.host.connections.filterMap (·.wakeup?) ++ w.members.flatMap Member.wakeups
  (all.filter (w.now < ·)).min?

/-- Lets time pass at most so often, and not beyond the deadline, until a client's keeper is
over. Everybody else moves in the meantime, whenever it is time for them. -/
def awaitWithin (i : Nat) (deadline : Instant) : Nat → World → World
  | 0, w => w
  | n + 1, w =>
    let w := w.settle
    match (w.members[i]?).bind Member.keeper with
    | none => w
    | some k =>
      match k.result, w.wakeup? with
      | none, some t => if t ≤ deadline then awaitWithin i deadline n { w with now := t } else w
      | _, _ => w

/-- How long anybody waits for a client's keeper. -/
def longestWait : Duration := .ofMillis 60000

/-- Lets time pass until a client's keeper is over, but not too long. -/
def awaitKeeper (w : World) (i : Nat) : World :=
  awaitWithin i (w.now + longestWait) patience w

/-! ## Events -/

/-- Tries once to hand an event to a session of the server. -/
def offerOnce (w : World) (key : Nat) (id : SessionId) (e : Event) : Stage.Sent × World :=
  match Server.handTo w.host.outlets key id e with
  | (.done outcome, outlets) => (.done outcome, { w with host := { w.host with outlets } })
  | (.refused why, _) => (.refused why, w)
  | (.wait, _) => (.pending, w)

/-- The server sends an event to the focused session, and waits for room as long as anybody
moves. -/
def serverSend (w : World) (e : Event) : Stage.Sent × World :=
  match Server.target w.host.registry w.host.pin with
  | none => (.nobody, w)
  | some id =>
    match w.host.registry.control id with
    | none => (.refused (.notFound id), w)
    | some key =>
      match w.offerOnce key id e with
      | (.pending, w) => w.settle.offerOnce key id e
      | r => r

/-- The server sends events one after another. -/
def serverSendAll (w : World) (es : List Event) : List Stage.Sent × World :=
  let (out, w) := es.foldl (fun (out, w) e ↦
    let (r, w) := w.serverSend e
    (r :: out, w)) (([] : List Stage.Sent), w)
  (out.reverse, w)

/-- Tries once to give an event to a client's session. -/
def clientOnce (w : World) (i key : Nat) (id : SessionId) (e : Event) : Stage.Sent × World :=
  match w.members[i]? with
  | none => (.nobody, w)
  | some m =>
    let (handed, guest) := m.guest.hand key id e
    let w := w.setMember i { m with guest }
    match handed with
    | .done outcome => (.done outcome, w)
    | .refused why => (.refused why, w)
    | .wait => (.pending, w)

/-- A client sends an event, and waits for room as long as anybody moves. -/
def clientSend (w : World) (i : Nat) (e : Event) : Stage.Sent × World :=
  match (w.members[i]?).bind fun m ↦ m.guest.target? with
  | none => (.nobody, w)
  | some (id, key) =>
    match w.clientOnce i key id e with
    | (.pending, w) => w.settle.clientOnce i key id e
    | r => r

/-! ## Calls of a client -/

/-- Connects a client; none when that does not come to an end, and then it is given up. -/
def connect (w : World) (i : Nat) : Option (Except Failure SessionId) × World :=
  match w.members[i]? with
  | none => (none, w)
  | some m =>
    let w := (w.setMember i { m with attempt := some (.start address) }).settle
    match w.members[i]? with
    | none => (none, w)
    | some m =>
      let held := m.attempt.bind Attempt.stream?
      let w := w.putBack held (w.heldStream held).drop
      ((m.attempt.bind Attempt.result?), w.setMember i { m with attempt := none })

/-- Disconnects a client; none when that does not come to an end. -/
def disconnect (w : World) (i : Nat) (id : SessionId) : Option (Except Failure Unit) × World :=
  match w.members[i]? with
  | none => (none, w)
  | some m =>
    match m.guest.disconnect id with
    | .error why => (some (.error why), w)
    | .ok (key, guest) =>
      let w := (w.setMember i { m with guest }).settle
      (((w.members[i]?).bind (·.guest.ended? key)).map fun _ ↦ .ok (), w)

/-- Waits for the end of a client's session; none when it does not come. -/
def waitClosed (w : World) (i : Nat) (id : SessionId) : Option Session.Ending :=
  (w.members[i]?).bind fun m ↦ (m.guest.wait id).result? m.guest

def keep (w : World) (i : Nat) : World :=
  match w.members[i]? with
  | none => w
  | some m => w.setMember i { m with keeper := some (.start address m.policy), cancelled := false }

/-- The server listens at an address, until it is shut down. -/
def listen (w : World) (address : String) : Except IoError SocketAddress × World :=
  match listenAlone w.listening address with
  | .ok a => (.ok a, if w.host.stopped then w else { w with listening := a :: w.listening })
  | .error why => (.error why, w)

def shutdown (w : World) : World := { w with host := w.host.shutdown, listening := [] }

def cancel (w : World) (i : Nat) : World :=
  match w.members[i]? with
  | none => w
  | some m => w.setMember i { m with cancelled := true }

end World

end DeskLink.Rehearsal
