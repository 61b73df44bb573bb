import DeskLink.Credential
import DeskLink.Session.Outlet
import DeskLink.Tuning

/-!
# A client with its sessions

A `Guest` remembers every session that it has begun, by a key, and which of them is the one it is
connected by. When a session ends, three things are noted at once: the connection is forgotten if
it is still that session's, a failure becomes the last error, and the ending is kept, so that those
who ask later are told what those who waited were told.
-/

namespace DeskLink.Client

open Session (Worker Outlet Ending Handed)

/-- A session that has been begun. -/
structure Run where
  worker : Worker
  outlet : Outlet
  /-- The stream that it runs over. -/
  stream : Nat
  /-- How it ended, once that has been noted. -/
  ended : Option Ending

/-- The session that a client is connected by. -/
structure Active where
  session : SessionId
  /-- The key of the session's run. -/
  run : Nat
  deriving DecidableEq

/-- A client. -/
structure Guest where
  own : Hello
  prover : Prover
  inject : Injector
  tuning : Tuning
  /-- Every session begun, by key. -/
  runs : List Run
  active : Option Active
  lastRtt : Option Duration
  /-- The failure of the latest session or attempt to connect. -/
  lastError : Option Failure
  /-- The session that ended last, and how. -/
  lastEnd : Option (SessionId × Ending)
  /-- Events injected, in order. -/
  injected : List Event
  /-- How many round trips were measured. -/
  latencies : Nat

/-- What a client says about its connection. -/
structure Status where
  session : Option SessionId
  rtt : Option Duration
  error : Option Failure
  deriving DecidableEq

def Status.connected (s : Status) : Bool := s.session.isSome

namespace Guest

def new (own : Hello) (prover : Prover) (inject : Injector) (tuning : Tuning) : Guest :=
  ⟨own, prover, inject, tuning, [], none, none, none, none, [], 0⟩

def status (g : Guest) : Status := ⟨g.active.map Active.session, g.lastRtt, g.lastError⟩

def setRun (g : Guest) (key : Nat) (r : Run) : Guest := { g with runs := g.runs.set key r }

/-- How the run with this key ended, once that has been noted. -/
def ended? (g : Guest) (key : Nat) : Option Ending := (g.runs[key]?).bind Run.ended

/-! ## The life of a session -/

/-- Begins a session over an established link, and connects by it. -/
def begin (g : Guest) (session : SessionId) (link : Link) (stream : Nat) (now : Instant) : Guest :=
  let worker := Worker.start session g.own.version g.tuning.heartbeat g.tuning.drain link now
  { g with
    runs := g.runs ++ [⟨worker, .new g.tuning.queueCapacity, stream, none⟩]
    active := some ⟨session, g.runs.length⟩
    lastRtt := none }

/-- What a session tells about itself. -/
def note (g : Guest) : Session.Effect → Guest
  | .injected e =>
    match g.inject e with
    | .ok _ => { g with injected := g.injected ++ [e] }
    | .error _ => g
  | .progress s =>
    if s.rtt.isSome then
      let g := { g with latencies := g.latencies + 1 }
      if g.active.map Active.session = some s.session then { g with lastRtt := s.rtt } else g
    else g
  | _ => g

/-- Notes that a session has ended. -/
def conclude (g : Guest) (key : Nat) (r : Run) (e : Ending) : Guest :=
  let id := r.worker.session
  let g := g.setRun key { r with ended := some e }
  let lastError := match e with
    | .error why => some why
    | .ok _ => g.lastError
  { g with
    active := if g.active.map Active.session = some id then none else g.active
    lastError
    lastEnd := some (id, e) }

/-- The outlet of a run: it is abandoned once the client is not connected by it. -/
def outletOf (g : Guest) (key : Nat) (r : Run) : Outlet :=
  { r.outlet with commands := { r.outlet.commands with
      abandoned := g.active.map Active.run != some key } }

/-- One move of the session with this key over this end of its stream. -/
def step (g : Guest) (key : Nat) (now : Instant) (e : Endpoint) : Option (Guest × Endpoint) :=
  match g.runs[key]? with
  | none => none
  | some r =>
    match r.worker.result?, r.ended with
    | some _, some _ => none
    | some ending, none => some (g.conclude key r ending, e)
    | none, _ =>
      (r.worker.move now g.inject (g.outletOf key r) e).map fun (worker, effect, outlet, e) ↦
        ((g.note effect).setRun key { r with worker, outlet }, e)

/-! ## What a client is asked to do -/

/-- Asks the session with this key to close. When its mailbox is full or closed, the session is
ending already. -/
def askToClose (g : Guest) (key : Nat) (reason : CloseReason) : Guest :=
  match g.runs[key]? with
  | none => g
  | some r =>
    let commands := (r.outlet.commands.post reason).2
    g.setRun key { r with outlet := { r.outlet with commands } }

/-- Asks the session of the connection to close, when it has this name; gives the key of the run
whose end is to be waited for. -/
def disconnect (g : Guest) (id : SessionId) : Except Failure (Nat × Guest) :=
  match g.active with
  | some a =>
    if a.session = id then .ok (a.run, g.askToClose a.run .userInitiated)
    else .error (.notFound id)
  | none => .error (.notFound id)

/-- What somebody who waits for the end of a session waits for. -/
inductive Waiting where
  /-- The end of the run with this key. -/
  | until_ (key : Nat)
  | ended (e : Ending)

/-- Begins to wait for the end of a session. -/
def wait (g : Guest) (id : SessionId) : Waiting :=
  match g.active, g.lastEnd with
  | some a, last =>
    if a.session = id then .until_ a.run
    else match last with
      | some (other, e) => .ended (if other = id then e else .error (.notFound id))
      | none => .ended (.error (.notFound id))
  | none, some (other, e) => .ended (if other = id then e else .error (.notFound id))
  | none, none => .ended (.error (.notFound id))

/-- The end that was waited for, once it is there. -/
def Waiting.result? (g : Guest) : Waiting → Option Ending
  | until_ key => g.ended? key
  | ended e => some e

/-- The session that input is sent to, and the key of its run. -/
def target? (g : Guest) : Option (SessionId × Nat) := g.active.map fun a ↦ (a.session, a.run)

/-- Hands an event to the session with this key. -/
def hand (g : Guest) (key : Nat) (id : SessionId) (e : Event) : Handed × Guest :=
  match g.runs[key]? with
  | none => (.refused (.notFound id), g)
  | some r =>
    let (handed, outlet) := r.outlet.hand id e
    (handed, g.setRun key { r with outlet })

end Guest

end DeskLink.Client
