import DeskLink.Link
import DeskLink.Input.Router
import DeskLink.Session.Record

/-!
# The worker of an established session

A `Worker` owns the link of an established session until the session ends. It waits for whichever
comes first, and prefers, in this order: a command to close, a heartbeat that is due, a message
from the other side, an input event to send. Sending anything is given up when the heartbeat
deadline passes first, so a session never outlives it.

A session ends by a command, by the other side's notice, or by a failure. The worker then closes
the input queue; tells the other side what it cannot know, the notice after a command or a report
when there is a code for the failure; and shuts the stream. The farewell is given up after the
drain time.

`step` is one move, as for the handshake: it is told what the surroundings offer and says what it
made use of.
-/

namespace DeskLink.Session

/-- Who ended a session. -/
inductive Initiator where
  | own | peer
  deriving DecidableEq, Repr

/-- An end that both sides agree on. -/
structure End where
  initiator : Initiator
  reason : CloseReason
  deriving DecidableEq, Repr

/-- How a session ended. -/
abbrev Ending := Except Failure End

/-- What the surroundings have to offer. -/
structure Offer where
  now : Instant
  /-- A command; `some none` once nobody can give one any more. -/
  command : Option (Option CloseReason)
  read : ReadReply
  write : WriteReply
  flush : FlushReply
  /-- Whether the input queue still takes events. -/
  queueOpen : Bool
  /-- The oldest event in the queue. -/
  event : Option Event
  inject : Injector

/-- What a move made use of. -/
inductive Effect where
  | none
  | command
  | read (count : Nat)
  | wrote (b : Bytes)
  /-- The oldest event was taken from the queue. -/
  | popped
  /-- An event was handed to the injector. -/
  | injected (e : Event)
  /-- The other side proved that it is there. -/
  | progress (s : Snapshot)
  /-- The input queue was closed. -/
  | closedQueue
  | shut
  deriving DecidableEq

/-- What a worker is busy with. -/
inductive Phase where
  | waiting
  | sending (t : Frame.Transmission)
  /-- The session has ended; the queue is about to be closed. -/
  | ending (e : Ending)
  /-- The farewell is on its way until this instant. -/
  | parting (t : Frame.Transmission) (until_ : Instant) (e : Ending)
  | shutting (e : Ending)
  | ended (e : Ending)

/-- The worker of one session. -/
structure Worker where
  session : SessionId
  version : Version
  drain : Duration
  link : Link
  monitor : Heartbeat.Monitor
  commandsOpen : Bool
  router : Router
  phase : Phase

namespace Worker

def start (session : SessionId) (version : Version) (interval drain : Duration) (link : Link)
    (now : Instant) : Worker :=
  ⟨session, version, drain, link, .start interval now, true, .start, .waiting⟩

/-- A move that made use of nothing. -/
def quietly (w : Worker) : Option (Worker × Effect) := some (w, .none)

def finish (w : Worker) (e : Ending) : Worker := { w with phase := .ending e }

def send (w : Worker) (m : Message) : Worker :=
  match w.link.prepare m with
  | (.ok (_, t), link) => { w with link, phase := .sending t }
  | (.error why, link) => { w with link }.finish (.error why)

/-- The failure of a silent peer. -/
def silence (d : Duration) : Failure :=
  let ms := d.millis
  .lost s!"no heartbeat ack for {ms} ms"

/-- The failure of a peer that does not read. -/
def stalled (d : Duration) : Failure :=
  let ms := d.millis
  .lost s!"peer stopped reading; no heartbeat ack for {ms} ms"

/-- The snapshot after an acknowledgement. -/
def snapshot (w : Worker) (rtt : Option Duration) : Snapshot :=
  ⟨w.session, w.monitor.lastAck, rtt, w.link.outbound.last, w.link.inbound.lastSeen⟩

/-- Handles a message from the other side. -/
def handle (w : Worker) (o : Offer) (m : Message) : Worker × Effect :=
  match m with
  | .input e => ({ w with router := w.router.deliver o.inject e }, .injected e)
  | .heartbeat token => (w.send (.heartbeatAck token), .none)
  | .heartbeatAck token =>
    let (rtt, monitor) := w.monitor.onAck token.toNat o.now
    let w := { w with monitor }
    (w, .progress (w.snapshot rtt))
  | .close reason => (w.finish (.ok ⟨.peer, reason⟩), .none)
  | .report r => (w.finish (.error (.ofReport w.version r)), .none)
  | .hello _ | .auth _ | .authResult _ => (w, .none)

def beat (w : Worker) (now : Instant) : Worker :=
  let (due, monitor) := w.monitor.poll now
  let w := { w with monitor }
  match due with
  | .nothing => w
  | .beat token => w.send (.heartbeat (UInt64.ofNat token))
  | .stale silent => w.finish (.error (silence silent))

def forward (w : Worker) (o : Offer) : Option (Worker × Effect) :=
  match o.queueOpen, o.event with
  | true, some e => some (w.send (.input e), .popped)
  | _, _ => none

/-- Goes on with a message or, when none comes, with an input event. -/
def listen (w : Worker) (o : Offer) : Option (Worker × Effect) :=
  match w.link.receive o.read with
  | (.blocked, _) => w.forward o
  | (.read count, link) => some ({ w with link }, .read count)
  | (.frame none, link) => quietly { w with link }
  | (.frame (some m), link) => some ({ w with link }.handle o m)
  | (.failed why, link) => quietly ({ w with link }.finish (.error why))

/-- Takes up whatever comes first. -/
def select (w : Worker) (o : Offer) : Option (Worker × Effect) :=
  match w.commandsOpen, o.command with
  | true, some (some reason) => some (w.finish (.ok ⟨.own, reason⟩), .command)
  | true, some none => quietly { w with commandsOpen := false }
  | _, _ => if w.monitor.nextWakeup ≤ o.now then quietly (w.beat o.now) else w.listen o

/-- What the other side is told at the end. -/
def farewell? : Ending → Option Message
  | .ok ⟨.own, reason⟩ => some (.close reason)
  | .ok ⟨.peer, _⟩ => none
  | .error why => why.report?.map .report

/-- Starts the farewell, when there is one. -/
def part (w : Worker) (now : Instant) (e : Ending) : Worker :=
  match farewell? e with
  | none => { w with phase := .shutting e }
  | some m =>
    match w.link.prepare m with
    | (.ok (_, t), link) => { w with link, phase := .parting t (now + w.drain) e }
    | (.error _, link) => { w with link, phase := .shutting e }

/-- One move; none when there is nothing to do but wait, or when it is over. -/
def step (w : Worker) (o : Offer) : Option (Worker × Effect) :=
  match w.phase with
  | .waiting => w.select o
  | .sending t =>
    match t.advance o.write o.flush with
    | .blocked =>
      if w.monitor.staleAt ≤ o.now then
        quietly (w.finish (.error (stalled (o.now - w.monitor.lastAck))))
      else none
    | .wrote b left => some ({ w with phase := .sending left }, .wrote b)
    | .finished => quietly { w with link := w.link.sent t.size, phase := .waiting }
    | .failed why => quietly (w.finish (.error (.ofTransport why)))
  | .ending e => some (w.part o.now e, .closedQueue)
  | .parting t until_ e =>
    match t.advance o.write o.flush with
    | .blocked => if until_ ≤ o.now then quietly { w with phase := .shutting e } else none
    | .wrote b left => some ({ w with phase := .parting left until_ e }, .wrote b)
    | .finished => quietly { w with link := w.link.sent t.size, phase := .shutting e }
    | .failed _ => quietly { w with phase := .shutting e }
  | .shutting e => some ({ w with phase := .ended e }, .shut)
  | .ended _ => none

/-- The instant at which waiting ends by itself. -/
def wakeup? (w : Worker) : Option Instant :=
  match w.phase with
  | .waiting => some w.monitor.nextWakeup
  | .sending _ => some w.monitor.staleAt
  | .parting _ until_ _ => some until_
  | _ => none

def result? (w : Worker) : Option Ending :=
  match w.phase with
  | .ended e => some e
  | _ => none

end Worker

end DeskLink.Session
