import DeskLink.Input.Waiting

/-!
# What happens at a shared queue

Producers and consumers use a queue in two ways: they try, and are answered at once, or they start a
task, which runs from one wait to the next until it has an answer, or is cancelled. `Act` lists all
of this, and `Happening` what an act brings to an end. An act that cannot happen, such as running a
task that waits, changes nothing.

An errand that gets an answer does one of four things, in `Answers`, whether it is tried at once or
by a task. One that gets none finds an open queue that has nothing for it.
-/

namespace DeskLink

/-- The two sides of a queue. -/
inductive Side where
  | producers | consumers
  deriving DecidableEq

/-- The side that has such an errand. -/
def Errand.side : Errand → Side
  | .push _ => .producers
  | .pop => .consumers

namespace Queue

/-- A queue hands an event back because it is closed or because it has no place for it. -/
theorem of_tryPush_error {q : Queue} {e : Event} {why : PushError} (h : q.tryPush e = .error why) :
    (q.closed = true ∧ why = .closed e) ∨
      (q.closed = false ∧ place? q.capacity q.events e = none ∧ why = .full e) := by
  unfold tryPush at h
  split at h
  · exact .inl ⟨‹_›, (Except.error.inj h).symm⟩
  · rename_i hopen
    split at h
    · nomatch h
    · exact .inr ⟨Bool.eq_false_iff.mpr hopen, ‹_›, (Except.error.inj h).symm⟩

theorem of_tryPop {q q' : Queue} {e : Event} (h : q.tryPop = some (e, q')) :
    ∃ rest, q.events = e :: rest ∧ q' = { q with events := rest } := by
  unfold tryPop at h
  split at h
  · nomatch h
  · obtain ⟨rfl, rfl⟩ := Prod.mk.inj (Option.some.inj h)
    exact ⟨_, ‹_›, rfl⟩

private theorem tryPop_eq_none {q : Queue} (h : q.tryPop = none) : q.events = [] := by
  unfold tryPop at h
  split at h
  · assumption
  · nomatch h

end Queue

/-- What an errand is told that is tried in vain. -/
def Errand.vain : Errand → ErrandResult
  | .push e => .refused (.full e)
  | .pop => .popped none

namespace SharedQueue

/-! ## Acts -/

/-- What can happen at a queue. -/
inductive Act where
  | tryPush (e : Event)
  | tryPop
  | close
  /-- A task with this name begins. -/
  | start (id : Nat) (errand : Errand)
  /-- A task that is able to run does so until it waits or ends. -/
  | run (id : Nat)
  | cancel (id : Nat)

/-- What an act brings to an end. -/
inductive Happening where
  /-- An errand was answered, at once or after waiting. -/
  | answered (errand : Errand) (result : ErrandResult)
  /-- The queue was closed, and these events were discarded. -/
  | closed (discarded : List Event)

/-- An errand that is tried at once: a push may be refused by a full queue, and a pop may find an
open queue empty. -/
def attemptOnce (s : SharedQueue) : Errand → ErrandResult × SharedQueue
  | .push e =>
    match s.tryPush e with
    | (.ok outcome, s) => (.pushed outcome, s)
    | (.error why, s) => (.refused why, s)
  | .pop => (.popped s.tryPop.1, s.tryPop.2)

/-- The task with this name. -/
def task? (s : SharedQueue) (id : Nat) : Option QueueTask := s.tasks.find? (·.id == id)

/-- What an act brings to an end, and the queue after it. -/
def act (s : SharedQueue) : Act → Option Happening × SharedQueue
  | .tryPush e =>
    (some (.answered (.push e) (s.attemptOnce (.push e)).1), (s.attemptOnce (.push e)).2)
  | .tryPop => (some (.answered .pop (s.attemptOnce .pop).1), (s.attemptOnce .pop).2)
  | .close => (some (.closed s.queue.events), s.close.2)
  | .start id errand => (none, if (s.task? id).isSome then s else s.spawn id errand)
  | .run id =>
    match s.task? id with
    | some t =>
      if t.state = .waiting then (none, s)
      else ((s.runTask id).1.map fun r ↦ .answered t.errand r.2, (s.runTask id).2)
    | none => (none, s)
  | .cancel id => (none, s.cancel id)

/-- What acts bring to an end, in order, and the queue after them. -/
def perform (s : SharedQueue) : List Act → List Happening × SharedQueue
  | [] => ([], s)
  | a :: acts => ((s.act a).1.toList ++ ((s.act a).2.perform acts).1, ((s.act a).2.perform acts).2)

/-! ## Errands -/

/-- What an errand can be answered, and what becomes of the queue. -/
inductive Answers (s : SharedQueue) : Errand → ErrandResult → SharedQueue → Prop where
  | takes {e : Event} {outcome : PushOutcome} {queue : Queue}
      (hpush : s.queue.tryPush e = .ok (outcome, queue)) (hkept : outcome ≠ .droppedMove) :
      Answers s (.push e) (.pushed outcome) (ringReady { s with queue })
  | drops {e : Event} {queue : Queue} (hpush : s.queue.tryPush e = .ok (.droppedMove, queue)) :
      Answers s (.push e) (.pushed .droppedMove) { s with queue }
  | turnsAway {e : Event} (hclosed : s.queue.closed = true) :
      Answers s (.push e) (.refused (.closed e)) s
  | gives {e : Event} {queue : Queue} (hpop : s.queue.tryPop = some (e, queue)) :
      Answers s .pop (.popped (some e)) (ringSpace { s with queue })
  | ends (hclosed : s.queue.closed = true) (hempty : s.queue.events = []) :
      Answers s .pop (.popped none) s

/-- An open queue has no answer to an errand yet. -/
inductive Lacks (s : SharedQueue) : Errand → Prop where
  | place {e : Event} (hopen : s.queue.closed = false)
      (hplace : Queue.place? s.queue.capacity s.queue.events e = none) : Lacks s (.push e)
  | event (hopen : s.queue.closed = false) (hempty : s.queue.events = []) : Lacks s .pop

variable {s : SharedQueue} {errand : Errand}

private theorem answers_tryPush {e : Event} {outcome : PushOutcome} {queue : Queue}
    (h : s.queue.tryPush e = .ok (outcome, queue)) :
    s.Answers (.push e) (.pushed outcome) (s.tryPush e).2 := by
  simp only [tryPush, h]
  split
  · subst_vars
    exact .drops h
  · exact .takes h ‹_›

private theorem answers_tryPop {e : Event} {queue : Queue} (h : s.queue.tryPop = some (e, queue)) :
    s.Answers .pop (.popped (some e)) s.tryPop.2 := by
  simp only [tryPop, h]
  exact .gives h

/-- A look at the queue gives the answer, and none when it would be in vain. -/
theorem attempt_cases (s : SharedQueue) (errand : Errand) :
    (∃ r s', s.Answers errand r s' ∧ s.attempt errand = (some r, s')) ∨
      (s.Lacks errand ∧ s.attempt errand = (none, s)) := by
  cases errand with
  | push e =>
    cases hpush : s.queue.tryPush e with
    | ok taken =>
      refine .inl ⟨_, _, answers_tryPush hpush, ?_⟩
      simp only [attempt, tryPush, hpush]
    | error why =>
      simp only [attempt, tryPush, hpush]
      rcases Queue.of_tryPush_error hpush with ⟨hclosed, rfl⟩ | ⟨hopen, hplace, rfl⟩
      · exact .inl ⟨_, _, .turnsAway hclosed, rfl⟩
      · exact .inr ⟨.place hopen hplace, rfl⟩
  | pop =>
    cases hpop : s.queue.tryPop with
    | some given =>
      refine .inl ⟨_, _, answers_tryPop hpop, ?_⟩
      simp only [attempt, tryPop, hpop]
    | none =>
      have hempty := Queue.tryPop_eq_none hpop
      simp only [attempt, tryPop, hpop]
      cases hclosed : s.queue.closed with
      | true => exact .inl ⟨_, _, .ends hclosed hempty, rfl⟩
      | false => exact .inr ⟨.event hclosed hempty, rfl⟩

private theorem attemptOnce_eq (s : SharedQueue) (errand : Errand) :
    s.attemptOnce errand = ((s.attempt errand).1.getD errand.vain, (s.attempt errand).2) := by
  cases errand with
  | push e =>
    simp only [attemptOnce, attempt, tryPush]
    cases hpush : s.queue.tryPush e with
    | ok taken => rfl
    | error why =>
      rcases Queue.of_tryPush_error hpush with ⟨-, rfl⟩ | ⟨-, -, rfl⟩
      · rfl
      · rfl
  | pop =>
    simp only [attemptOnce, attempt, tryPop]
    cases s.queue.tryPop with
    | some given => rfl
    | none => cases hclosed : s.queue.closed <;> simp [hclosed, Errand.vain]

/-- An errand that is tried is answered, or was in vain and has changed nothing. -/
theorem attemptOnce_cases (s : SharedQueue) (errand : Errand) :
    s.Answers errand (s.attemptOnce errand).1 (s.attemptOnce errand).2 ∨
      (s.Lacks errand ∧ s.attemptOnce errand = (errand.vain, s)) := by
  rw [attemptOnce_eq]
  rcases s.attempt_cases errand with ⟨r, s', hanswers, hattempt⟩ | ⟨hlacks, hattempt⟩
  · rw [hattempt]
    exact .inl hanswers
  · rw [hattempt]
    exact .inr ⟨hlacks, rfl⟩

private theorem attempt_of_lacks {s' : SharedQueue} (h : s.Lacks errand)
    (hqueue : s'.queue = s.queue) : s'.attempt errand = (none, s') := by
  cases h with
  | @place e hopen hplace =>
    have hpush : s'.queue.tryPush e = .error (.full e) := by
      rw [hqueue, Queue.tryPush, hplace, if_neg (Bool.eq_false_iff.mp hopen)]
    simp only [attempt, tryPush, hpush]
  | event hopen hempty =>
    have hpop : s'.queue.tryPop = none := by rw [hqueue, Queue.tryPop, hempty]
    have hopen' : s'.queue.closed = false := hqueue ▸ hopen
    simp only [attempt, tryPop, hpop, hopen']
    rfl

private theorem usePermit_eq_self (h : s.permitFor errand = false) : s.usePermit errand = s := by
  obtain ⟨queue, ⟨permit, _⟩, ⟨permit', _⟩, tasks, runnable⟩ := s
  cases errand with
  | push e =>
    obtain rfl : permit' = false := h
    rfl
  | pop =>
    obtain rfl : permit = false := h
    rfl

/-- **A task that runs gets its answer and is over, or waits again.** A permit lets it look twice,
but it finds the same queue. -/
theorem look_cases (s : SharedQueue) (id : Nat) (errand : Errand) :
    (∃ r s', s.Answers errand r s' ∧ s.look id errand = (some r, s'.forget id)) ∨
      (s.Lacks errand ∧ s.look id errand = (none, (s.usePermit errand).wait id errand)) := by
  rcases s.attempt_cases errand with ⟨r, s', hanswers, hattempt⟩ | ⟨hlacks, hattempt⟩
  · refine .inl ⟨r, s', hanswers, ?_⟩
    simp only [look, hattempt]
  · refine .inr ⟨hlacks, ?_⟩
    have hagain : (s.usePermit errand).attempt errand = (none, s.usePermit errand) :=
      attempt_of_lacks hlacks (by cases errand <;> rfl)
    cases hpermit : s.permitFor errand with
    | true => simp only [look, hattempt, hpermit, if_true, hagain]
    | false =>
      simp only [look, hattempt, hpermit, usePermit_eq_self hpermit]
      rfl

/-- The queue while a task runs. -/
def busy (s : SharedQueue) (id : Nat) : SharedQueue :=
  { s with runnable := s.runnable.filter (· != id) }

/-- What an act can be. -/
inductive Does (s : SharedQueue) : Option Happening → SharedQueue → Prop where
  /-- The act cannot happen. -/
  | nothing : Does s none s
  | tries {errand : Errand} {r : ErrandResult} {s' : SharedQueue}
      (hanswers : s.Answers errand r s') : Does s (some (.answered errand r)) s'
  | triesInVain {errand : Errand} (hlacks : s.Lacks errand) :
      Does s (some (.answered errand errand.vain)) s
  | closes : Does s (some (.closed s.queue.events)) s.close.2
  | starts {id : Nat} {errand : Errand} (hfresh : s.task? id = none) :
      Does s none (s.spawn id errand)
  | finishes {id : Nat} {t : QueueTask} {r : ErrandResult} {s' : SharedQueue}
      (htask : s.task? id = some t) (hable : t.state ≠ .waiting)
      (hanswers : (s.busy id).Answers t.errand r s') :
      Does s (some (.answered t.errand r)) (s'.forget id)
  | waits {id : Nat} {t : QueueTask} (htask : s.task? id = some t) (hable : t.state ≠ .waiting)
      (hlacks : (s.busy id).Lacks t.errand) :
      Does s none (((s.busy id).usePermit t.errand).wait id t.errand)
  | cancels {id : Nat} {t : QueueTask} (htask : s.task? id = some t) : Does s none (s.cancel id)

/-- A task that runs looks at the queue. -/
theorem runTask_eq {id : Nat} {t : QueueTask} (h : s.task? id = some t) :
    s.runTask id = (((s.busy id).look id t.errand).1.map (id, ·),
      ((s.busy id).look id t.errand).2) := by
  have hfound : s.tasks.find? (·.id == id) = some t := h
  simp only [runTask, hfound]
  split <;> rename_i hlook <;> rw [busy, hlook] <;> rfl

private theorem does_run (s : SharedQueue) (id : Nat) :
    s.Does (s.act (.run id)).1 (s.act (.run id)).2 := by
  simp only [act]
  cases htask : s.task? id with
  | none => exact .nothing
  | some t =>
    simp only
    split
    · exact .nothing
    · rename_i hable
      rw [runTask_eq htask]
      rcases (s.busy id).look_cases id t.errand with ⟨r, s', hanswers, hlook⟩ | ⟨hlacks, hlook⟩
      · rw [hlook]
        exact .finishes htask hable hanswers
      · rw [hlook]
        exact .waits htask hable hlacks

/-- **An act is one of these.** -/
theorem does_act (s : SharedQueue) (a : Act) : s.Does (s.act a).1 (s.act a).2 := by
  have htries : ∀ errand, s.Does (some (.answered errand (s.attemptOnce errand).1))
      (s.attemptOnce errand).2 := by
    intro errand
    rcases s.attemptOnce_cases errand with hanswers | ⟨hlacks, hvain⟩
    · exact .tries hanswers
    · rw [hvain]
      exact .triesInVain hlacks
  cases a with
  | tryPush e => exact htries (.push e)
  | tryPop => exact htries .pop
  | close => exact .closes
  | start id errand =>
    simp only [act]
    split
    · exact .nothing
    · exact .starts (Option.not_isSome_iff_eq_none.mp ‹_›)
  | run id => exact s.does_run id
  | cancel id =>
    cases htask : s.task? id with
    | none =>
      have hcancel : s.cancel id = s := by
        have hfound : s.tasks.find? (·.id == id) = none := htask
        simp only [cancel, hfound]
      simp only [act, hcancel]
      exact .nothing
    | some t => exact .cancels htask

end SharedQueue

end DeskLink
