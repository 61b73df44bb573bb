import DeskLink.Input.Queue

/-!
# Waiting on the input queue

Several tasks may share a queue: producers that wait for room and consumers that wait for an
event. Each side waits on a `Bell`. Ringing it once wakes the task that has waited longest, or, if
none waits, leaves a permit that lets the next one pass; ringing it for all wakes every waiter and
leaves none.

A task runs without interruption from one wait to the next. When it is woken it looks at the queue
again from the start, so being woken is a hint and never a promise. A task that is cancelled after
it was woken by a single ring passes the ring on, since nobody else has heard it.
-/

namespace DeskLink

/-- What tasks wait on. -/
structure Bell where
  /-- A ring that nobody has heard yet. -/
  permit : Bool
  /-- The tasks that wait, longest first. -/
  waiting : List Nat
  deriving DecidableEq, Repr

namespace Bell

/-- Silent, with nobody waiting. -/
def quiet : Bell := ⟨false, []⟩

end Bell

/-- What a task wants of the queue. -/
inductive Errand where
  | push (e : Event)
  | pop
  deriving DecidableEq, Repr

/-- How an errand ended. -/
inductive ErrandResult where
  | pushed (outcome : PushOutcome)
  | refused (why : PushError)
  | popped (e : Option Event)
  deriving DecidableEq, Repr

/-- Where a task stands. -/
inductive TaskState where
  /-- On the list of its bell. -/
  | waiting
  /-- Able to run; `single` when it heard a ring that was for it alone. -/
  | ready (single : Bool)
  deriving DecidableEq, Repr

/-- A task that has not finished. -/
structure QueueTask where
  id : Nat
  errand : Errand
  state : TaskState
  deriving DecidableEq, Repr

/-- A queue with the tasks that use it. -/
structure SharedQueue where
  queue : Queue
  /-- Rung when an event comes or the queue closes. -/
  ready : Bell
  /-- Rung when room is made or the queue closes. -/
  space : Bell
  tasks : List QueueTask
  /-- The tasks able to run, first come first. -/
  runnable : List Nat
  deriving DecidableEq, Repr

namespace SharedQueue

def new (capacity : Nat) : SharedQueue := ⟨.new capacity, .quiet, .quiet, [], []⟩

/-- Marks a task as able to run. -/
def wake (single : Bool) (s : SharedQueue) (id : Nat) : SharedQueue :=
  { s with
    tasks := s.tasks.map fun t ↦ if t.id = id then { t with state := .ready single } else t
    runnable := s.runnable ++ [id] }

/-- Rings for one consumer. -/
def ringReady (s : SharedQueue) : SharedQueue :=
  match s.ready.waiting with
  | [] => { s with ready := ⟨true, []⟩ }
  | id :: rest => wake true { s with ready := { s.ready with waiting := rest } } id

/-- Rings for one producer. -/
def ringSpace (s : SharedQueue) : SharedQueue :=
  match s.space.waiting with
  | [] => { s with space := ⟨true, []⟩ }
  | id :: rest => wake true { s with space := { s.space with waiting := rest } } id

/-- Rings for everybody. -/
def ringAll (s : SharedQueue) : SharedQueue :=
  let ids := s.ready.waiting ++ s.space.waiting
  ids.foldl (wake false)
    { s with ready := { s.ready with waiting := [] }, space := { s.space with waiting := [] } }

/-! ## Operations that do not wait -/

/-- Takes an event without waiting, and rings for a consumer unless it was discarded. -/
def tryPush (s : SharedQueue) (e : Event) : Except PushError PushOutcome × SharedQueue :=
  match s.queue.tryPush e with
  | .error why => (.error why, s)
  | .ok (outcome, queue) =>
    let s := { s with queue }
    (.ok outcome, if outcome = .droppedMove then s else s.ringReady)

/-- Gives the oldest event without waiting, and rings for a producer. -/
def tryPop (s : SharedQueue) : Option Event × SharedQueue :=
  match s.queue.tryPop with
  | none => (none, s)
  | some (e, queue) => (some e, ringSpace { s with queue })

/-- Closes the queue and wakes everybody; gives the number of events discarded. -/
def close (s : SharedQueue) : Nat × SharedQueue :=
  let (n, queue) := s.queue.close
  (n, ringAll { s with queue })

/-! ## Tasks -/

def spawn (s : SharedQueue) (id : Nat) (errand : Errand) : SharedQueue :=
  { s with tasks := s.tasks ++ [⟨id, errand, .ready false⟩], runnable := s.runnable ++ [id] }

def forget (s : SharedQueue) (id : Nat) : SharedQueue :=
  { s with tasks := s.tasks.filter (·.id != id), runnable := s.runnable.filter (· != id) }

/-- Puts a task on the list of its bell. -/
def wait (s : SharedQueue) (id : Nat) (errand : Errand) : SharedQueue :=
  let tasks := s.tasks.map fun t ↦ if t.id = id then { t with state := TaskState.waiting } else t
  let s := { s with tasks }
  match errand with
  | .push _ => { s with space := { s.space with waiting := s.space.waiting ++ [id] } }
  | .pop => { s with ready := { s.ready with waiting := s.ready.waiting ++ [id] } }

/-- One look of a task at the queue: the result when it can finish, and otherwise whether a permit
lets it look again at once. -/
def attempt (s : SharedQueue) (errand : Errand) : Option ErrandResult × SharedQueue :=
  match errand with
  | .push e =>
    match s.tryPush e with
    | (.ok outcome, s) => (some (.pushed outcome), s)
    | (.error (.closed e), s) => (some (.refused (.closed e)), s)
    | (.error (.full _), s) => (none, s)
  | .pop =>
    match s.tryPop with
    | (some e, s) => (some (.popped (some e)), s)
    | (none, s) => if s.queue.closed then (some (.popped none), s) else (none, s)

/-- Whether a task that would wait finds a permit. -/
def permitFor (s : SharedQueue) : Errand → Bool
  | .push _ => s.space.permit
  | .pop => s.ready.permit

def usePermit (s : SharedQueue) : Errand → SharedQueue
  | .push _ => { s with space := { s.space with permit := false } }
  | .pop => { s with ready := { s.ready with permit := false } }

/-- Lets a task look at the queue, once more if there is a permit, and then wait. -/
def look (s : SharedQueue) (id : Nat) (errand : Errand) : Option ErrandResult × SharedQueue :=
  match s.attempt errand with
  | (some r, s) => (some r, s.forget id)
  | (none, s) =>
    if s.permitFor errand then
      match (s.usePermit errand).attempt errand with
      | (some r, s) => (some r, s.forget id)
      | (none, s) => (none, s.wait id errand)
    else (none, s.wait id errand)

def runTask (s : SharedQueue) (id : Nat) : Option (Nat × ErrandResult) × SharedQueue :=
  let s := { s with runnable := s.runnable.filter (· != id) }
  match s.tasks.find? (·.id == id) with
  | none => (none, s)
  | some t =>
    match s.look id t.errand with
    | (some r, s) => (some (id, r), s)
    | (none, s) => (none, s)

/-- Runs at most `fuel` tasks that are able to run, first come first; gives what finished. -/
def runTasks (s : SharedQueue) (fuel : Nat) (done : List (Nat × ErrandResult)) :
    List (Nat × ErrandResult) × SharedQueue :=
  match fuel, s.runnable with
  | 0, _ | _, [] => (done, s)
  | fuel + 1, id :: _ =>
    let (r, s) := s.runTask id
    s.runTasks fuel (done ++ r.toList)

/-- Runs tasks until none is able to run; gives what finished, in order. Only a task that ends
rings, and it rings once, so there are no more runs than runnable tasks and tasks together. -/
def settle (s : SharedQueue) : List (Nat × ErrandResult) × SharedQueue :=
  s.runTasks (s.runnable.length + s.tasks.length) []

/-- Abandons a task. A ring that was for it alone goes to the next one. -/
def cancel (s : SharedQueue) (id : Nat) : SharedQueue :=
  match s.tasks.find? (·.id == id) with
  | none => s
  | some t =>
    let s := (s.forget id)
    let s := { s with
      ready := { s.ready with waiting := s.ready.waiting.filter (· != id) }
      space := { s.space with waiting := s.space.waiting.filter (· != id) } }
    match t.state, t.errand with
    | .ready true, .push _ => s.ringSpace
    | .ready true, .pop => s.ringReady
    | _, _ => s

end SharedQueue

end DeskLink
