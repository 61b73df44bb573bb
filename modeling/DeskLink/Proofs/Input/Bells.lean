import DeskLink.Proofs.Input.Moves

/-!
# Bells

The two sides of a queue are alike: each has a bell, on whose list its tasks wait and which is rung
for one of them or for all. What rings, waits, leaves and closes is said here once, for either
side.
-/

namespace DeskLink.SharedQueue

/-! ## Two bells -/

def bell (s : SharedQueue) : Side → Bell
  | .producers => s.space
  | .consumers => s.ready

/-- The queue with another bell for a side. -/
def hang (s : SharedQueue) (side : Side) (b : Bell) : SharedQueue :=
  match side with
  | .producers => { s with space := b }
  | .consumers => { s with ready := b }

@[simp] theorem queue_hang (s : SharedQueue) (side : Side) (b : Bell) :
    (s.hang side b).queue = s.queue := by cases side <;> rfl

@[simp] theorem tasks_hang (s : SharedQueue) (side : Side) (b : Bell) :
    (s.hang side b).tasks = s.tasks := by cases side <;> rfl

@[simp] theorem runnable_hang (s : SharedQueue) (side : Side) (b : Bell) :
    (s.hang side b).runnable = s.runnable := by cases side <;> rfl

theorem bell_hang (s : SharedQueue) (side side' : Side) (b : Bell) :
    (s.hang side b).bell side' = if side' = side then b else s.bell side' := by
  cases side <;> cases side' <;> rfl

theorem forget_hang (s : SharedQueue) (side : Side) (b : Bell) (id : Nat) :
    (s.hang side b).forget id = (s.forget id).hang side b := by cases side <;> rfl

def ring (s : SharedQueue) : Side → SharedQueue
  | .producers => s.ringSpace
  | .consumers => s.ringReady

theorem ring_eq (s : SharedQueue) (side : Side) : s.ring side =
    match (s.bell side).waiting with
    | [] => s.hang side ⟨true, []⟩
    | id :: rest => wake true (s.hang side { s.bell side with waiting := rest }) id := by
  cases side <;> rfl

theorem queue_ring (s : SharedQueue) (side : Side) : (s.ring side).queue = s.queue := by
  rw [ring_eq]
  split
  · exact queue_hang ..
  · exact queue_hang ..

theorem ring_of_nobody {s : SharedQueue} {side : Side} (h : (s.bell side).waiting = []) :
    s.ring side = s.hang side ⟨true, []⟩ := by
  rw [ring_eq, h]

theorem ring_of_waiting {s : SharedQueue} {side : Side} {id : Nat} {rest : List Nat}
    (h : (s.bell side).waiting = id :: rest) :
    s.ring side = wake true (s.hang side { s.bell side with waiting := rest }) id := by
  rw [ring_eq, h]

/-! ## The operations on tasks -/

/-- The queue without a task, wherever it stands. -/
def without (s : SharedQueue) (id : Nat) : SharedQueue :=
  { s.forget id with
    ready := { s.ready with waiting := s.ready.waiting.filter (· != id) }
    space := { s.space with waiting := s.space.waiting.filter (· != id) } }

theorem not_mem_without (s : SharedQueue) (id : Nat) : id ∉ (s.without id).tasks.map (·.id) := by
  intro hid
  obtain ⟨u, hu, hid⟩ := List.mem_map.mp hid
  exact bne_iff_ne.mp (List.mem_filter.mp hu).2 hid

theorem filter_ne_of_not_mem {ids : List Nat} {id : Nat} (h : id ∉ ids) :
    ids.filter (· != id) = ids := by
  rw [List.filter_eq_self]
  intro id' hid'
  exact bne_iff_ne.mpr fun heq ↦ h (heq ▸ hid')

theorem waiting_without (s : SharedQueue) (id : Nat) (side : Side) :
    ((s.without id).bell side).waiting = (s.bell side).waiting.filter (· != id) := by
  cases side <;> rfl

theorem wait_eq (s : SharedQueue) (id : Nat) (errand : Errand) : s.wait id errand =
    { s.hang errand.side
        { s.bell errand.side with waiting := (s.bell errand.side).waiting ++ [id] } with
      tasks := s.tasks.map fun t ↦ if t.id = id then { t with state := .waiting } else t } := by
  cases errand <;> rfl

theorem usePermit_eq (s : SharedQueue) (errand : Errand) :
    s.usePermit errand = s.hang errand.side { s.bell errand.side with permit := false } := by
  cases errand <;> rfl

private theorem foldl_wake (single : Bool) (ids : List Nat) (s : SharedQueue) :
    ids.foldl (wake single) s = { s with
      tasks := s.tasks.map fun t ↦ if t.id ∈ ids then { t with state := .ready single } else t
      runnable := s.runnable ++ ids } := by
  induction ids generalizing s with
  | nil => simp
  | cons id ids ih =>
    rw [List.foldl_cons, ih, wake]
    simp only [List.map_map, List.append_assoc, List.singleton_append]
    congr 2
    funext t
    simp only [Function.comp_apply, List.mem_cons]
    grind

theorem close_eq (s : SharedQueue) : s.close.2 =
    { queue := s.queue.close.2
      ready := { s.ready with waiting := [] }
      space := { s.space with waiting := [] }
      tasks := s.tasks.map fun t ↦
        if t.id ∈ s.ready.waiting ++ s.space.waiting then { t with state := .ready false } else t
      runnable := s.runnable ++ (s.ready.waiting ++ s.space.waiting) } :=
  foldl_wake ..

theorem cancel_eq {s : SharedQueue} {id : Nat} {t : QueueTask} (htask : s.task? id = some t) :
    s.cancel id =
      if t.state = .ready true then (s.without id).ring t.errand.side else s.without id := by
  have hfound : s.tasks.find? (·.id == id) = some t := htask
  obtain ⟨id', errand, state⟩ := t
  simp only [cancel, hfound]
  cases state with
  | waiting => rfl
  | ready single => cases single <;> cases errand <;> rfl

theorem task?_eq_some {s : SharedQueue} {id : Nat} {t : QueueTask} (h : s.task? id = some t) :
    t ∈ s.tasks ∧ t.id = id :=
  ⟨List.mem_of_find?_eq_some h, by simpa using List.find?_some h⟩

/-! ## Forgetting a task that does not wait -/

private theorem forget_wake (s : SharedQueue) {id id' : Nat} (single : Bool) (h : id' ≠ id) :
    (s.wake single id').forget id = (s.forget id).wake single id' := by
  have hkept : (s.runnable ++ [id']).filter (· != id) = s.runnable.filter (· != id) ++ [id'] := by
    rw [List.filter_append, List.filter_cons_of_pos (by simpa using h), List.filter_nil]
  have htasks : ∀ mark : QueueTask → QueueTask, (∀ t, (mark t).id = t.id) →
      (s.tasks.map mark).filter (·.id != id) = (s.tasks.filter (·.id != id)).map mark := by
    intro mark hmark
    rw [List.filter_map]
    simp only [Function.comp_def, hmark]
  simp only [wake, forget, hkept]
  rw [htasks]
  intro t
  split <;> rfl

theorem forget_ring (s : SharedQueue) {id : Nat} (side : Side) (h : id ∉ (s.bell side).waiting) :
    (s.ring side).forget id = (s.forget id).ring side := by
  have hbell : (s.forget id).bell side = s.bell side := by cases side <;> rfl
  rw [ring_eq, ring_eq, hbell]
  cases hwaiting : (s.bell side).waiting with
  | nil => exact forget_hang ..
  | cons id' rest =>
    have hne : id' ≠ id := fun heq ↦ h (heq ▸ hwaiting ▸ List.mem_cons_self)
    exact (forget_wake _ true hne).trans (congrArg (wake true · id') (forget_hang ..))

theorem Answers.forget {s s' : SharedQueue} {errand : Errand} {r : ErrandResult} {id : Nat}
    (h : s.Answers errand r s') (hid : ∀ side, id ∉ (s.bell side).waiting) :
    (s.forget id).Answers errand r (s'.forget id) := by
  cases h with
  | @takes _ _ queue hpush hkept =>
    have hring := forget_ring { s with queue } .consumers (hid .consumers)
    exact hring ▸ .takes hpush hkept
  | drops hpush => exact .drops hpush
  | turnsAway hclosed => exact .turnsAway hclosed
  | @gives _ queue hpop =>
    have hring := forget_ring { s with queue } .producers (hid .producers)
    exact hring ▸ .gives hpop
  | ends hclosed hempty => exact .ends hclosed hempty

end DeskLink.SharedQueue
