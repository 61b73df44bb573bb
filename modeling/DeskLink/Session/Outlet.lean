import DeskLink.Input.Queue
import DeskLink.Session.Worker
import DeskLink.Handshake.Conduct

/-!
# What a session leaves to others

Others reach a running session through its `Outlet`: the queue of the events that it is to send,
and the mailbox of the commands that it is to follow. A mailbox holds a few commands; one that
finds no room is not needed, since the commands before it already close the session.

`Worker.move` and `Conduct.move` are the steps of both machines against an in-memory connection.
-/

namespace DeskLink

namespace Session

/-- Commands on their way to a session. -/
structure Mailbox where
  capacity : Nat
  waiting : List CloseReason
  /-- Nobody can give a command any more. -/
  abandoned : Bool
  /-- Nobody will take one. -/
  closed : Bool
  deriving DecidableEq, Repr

namespace Mailbox

def standardCapacity : Nat := 8

def new : Mailbox := ⟨standardCapacity, [], false, false⟩

/-- How a mailbox answers a command. -/
inductive Posted where
  | taken
  /-- Enough commands are waiting. -/
  | full
  /-- The session is over. -/
  | closed
  deriving DecidableEq, Repr

def post (m : Mailbox) (reason : CloseReason) : Posted × Mailbox :=
  if m.closed then (.closed, m)
  else if m.capacity ≤ m.waiting.length then (.full, m)
  else (.taken, { m with waiting := m.waiting ++ [reason] })

/-- What the session finds: a command, none ever again, or nothing yet. -/
def next? (m : Mailbox) : Option (Option CloseReason) :=
  match m.waiting with
  | reason :: _ => some (some reason)
  | [] => if m.abandoned then some none else none

/-- The mailbox without its first command. -/
def pop (m : Mailbox) : Mailbox := { m with waiting := m.waiting.drop 1 }

end Mailbox

/-- What others reach of a session. -/
structure Outlet where
  queue : Queue
  commands : Mailbox
  deriving DecidableEq, Repr

namespace Outlet

/-- The outlet of a session that has not begun. -/
def new (capacity : Nat) : Outlet := ⟨.new capacity, .new⟩

end Outlet

/-- How one attempt to hand an event to a session ends. -/
inductive Handed where
  | done (outcome : PushOutcome)
  | refused (why : Failure)
  /-- The queue is full. -/
  | wait
  deriving DecidableEq

/-- Puts an event into the queue of a session, which is named in the refusal. -/
def Outlet.hand (out : Outlet) (id : SessionId) (e : Event) : Handed × Outlet :=
  match out.queue.tryPush e with
  | .ok (outcome, queue) => (.done outcome, { out with queue })
  | .error (.closed _) => (.refused (.notFound id), out)
  | .error (.full _) => (.wait, out)

end Session

namespace Endpoint

/-- The end after reading so many bytes. -/
def consume (e : Endpoint) (n : Nat) : Endpoint := { e with incoming := e.incoming.consume n }

def write (e : Endpoint) (b : Bytes) : Endpoint := { e with outgoing := e.outgoing.append b }

/-- The end after shutting its writing direction. -/
def shut (e : Endpoint) : Endpoint := { e with outgoing := e.outgoing.close }

end Endpoint

/-! ## Moves against an in-memory connection -/

namespace Handshake

/-- What a registry does when it is asked. -/
structure Registrar where
  reserve : Except Failure Unit
  nonce : Nonce
  register : Identity → Version → Except Failure SessionId

/-- A registry for the connecting side, which is never asked. -/
def Registrar.absent : Registrar :=
  ⟨.error Conduct.noPlaces, .zero, fun _ _ ↦ .error Conduct.noRegistration⟩

/-- What one end of a connection and a registry offer. -/
def offer (now : Instant) (r : Registrar) (e : Endpoint) : Offer :=
  ⟨now, e.incoming.readReply, e.outgoing.writeReply, .finished, r.reserve, r.nonce, r.register⟩

/-- The end of the connection after a move. -/
def Effect.apply (e : Endpoint) : Effect → Endpoint
  | .read count => e.consume count
  | .wrote b => e.write b
  | .shut => e.shut
  | .none | .reserved | .registered .. => e

def Conduct.move (c : Conduct) (now : Instant) (r : Registrar) (e : Endpoint) :
    Option (Conduct × Effect × Endpoint) :=
  (c.step (offer now r e)).map fun (c, effect) ↦ (c, effect, effect.apply e)

end Handshake

namespace Session

/-- What one end of a connection and an outlet offer. -/
def offer (now : Instant) (inject : Injector) (out : Outlet) (e : Endpoint) : Offer where
  now := now
  command := out.commands.next?
  read := e.incoming.readReply
  write := e.outgoing.writeReply
  flush := .finished
  queueOpen := !out.queue.closed
  event := out.queue.events.head?
  inject := inject

/-- The outlet after a move. -/
def Effect.applyOutlet (out : Outlet) : Effect → Outlet
  | .command => { out with commands := out.commands.pop }
  | .popped => { out with queue := { out.queue with events := out.queue.events.drop 1 } }
  | .closedQueue => { out with queue := out.queue.close.2 }
  | .shut => { out with commands := { out.commands with closed := true } }
  | _ => out

/-- The end of the connection after a move. A session gives it up when it shuts it. -/
def Effect.apply (e : Endpoint) : Effect → Endpoint
  | .read count => e.consume count
  | .wrote b => e.write b
  | .shut => e.drop
  | _ => e

def Worker.move (w : Worker) (now : Instant) (inject : Injector) (out : Outlet) (e : Endpoint) :
    Option (Worker × Effect × Outlet × Endpoint) :=
  (w.step (offer now inject out e)).map fun (w, effect) ↦
    (w, effect, effect.applyOutlet out, effect.apply e)

end Session

end DeskLink
