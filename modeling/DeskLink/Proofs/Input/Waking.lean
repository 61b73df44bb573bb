import DeskLink.Proofs.Input.Accounting
import DeskLink.Proofs.Input.Bells

/-!
# No ring is lost

A task waits for a reason: the queue had nothing for it. When that changes, a ring should reach it,
but rings and changes do not match one to one. A coalesced push rings for an event that was there
before, a pop that was never rung for may take the event another consumer was woken for, and
a permit may be left over from long ago.

What is kept is a count. Call the errands of one side that the queue could answer in a row its
*openings*. As long as a task of that side waits, at least as many others have heard a ring and not
yet run:

```text
openings  ≤  rings heard
```

An event that comes, or a place that is left, makes one opening and rings once. A task that has
heard a ring and runs takes an opening with it, or finds that there is none; one that is cancelled
passes its ring on. Permits do not enter, since nobody waits before looking at the queue.
-/

namespace DeskLink

/-! ## Openings -/

/-- One for this side and none for the other. -/
def Side.one (side : Side) (side' : Side) : Nat := if side' = side then 1 else 0

/-- The openings that an errand takes when it is answered. A move may find its place among moves. -/
def Errand.takes : Errand → Side → Nat
  | .push e, side => if e.isMove then 0 else Side.producers.one side
  | .pop, side => Side.consumers.one side

namespace Queue

/-- How many errands of a side could be answered in a row. A move gives its place to an event that
is none, so it counts as room. -/
def openings (q : Queue) : Side → Nat
  | .producers => q.capacity - q.events.length + q.events.countP Event.isMove
  | .consumers => q.events.length

variable {q q' : Queue} {e : Event}

private theorem openings_tryPush {outcome : PushOutcome} (h : q.tryPush e = .ok (outcome, q'))
    (side : Side) :
    q'.openings side + (Errand.push e).takes side ≤ q.openings side + Side.consumers.one side := by
  obtain ⟨-, hplaces, hq'⟩ := of_tryPush h
  have hcapacity : q'.capacity = q.capacity := hq' ▸ rfl
  cases side with
  | producers =>
    simp only [openings, Errand.takes, Side.one, hcapacity]
    generalize q'.events = events at hplaces ⊢
    cases hplaces <;> grind
  | consumers =>
    simp only [openings, Errand.takes, Side.one]
    generalize q'.events = events at hplaces ⊢
    cases hplaces <;> grind

private theorem openings_of_dropped (h : q.tryPush e = .ok (.droppedMove, q')) (side : Side) :
    q'.openings side + (Errand.push e).takes side = q.openings side := by
  obtain ⟨-, hplaces, hq'⟩ := of_tryPush h
  have hcapacity : q'.capacity = q.capacity := hq' ▸ rfl
  have hdropped : q'.events = q.events ∧ e.isMove = true := by
    generalize q'.events = events at hplaces ⊢
    cases hplaces with
    | drops _ _ hnew => exact ⟨rfl, hnew⟩
  cases side <;> simp [openings, Errand.takes, hdropped, hcapacity]

private theorem openings_tryPop (h : q.tryPop = some (e, q')) (side : Side) :
    q'.openings side + Errand.pop.takes side ≤ q.openings side + Side.producers.one side := by
  obtain ⟨rest, hevents, rfl⟩ := of_tryPop h
  cases side with
  | producers =>
    simp only [openings, Errand.takes, Side.one, hevents]
    grind
  | consumers =>
    simp only [openings, Errand.takes, Side.one, hevents]
    grind

end Queue

/-! ## Tasks -/

namespace QueueTask

/-- Whether a task of a side has heard a ring that was for it alone. -/
def hears (t : QueueTask) (side : Side) : Bool := t.state = .ready true ∧ side = t.errand.side

variable {tasks : List QueueTask} {t : QueueTask}

theorem perm_without (hunique : (tasks.map id).Nodup) (ht : t ∈ tasks) :
    tasks.Perm (t :: tasks.filter (·.id != t.id)) := by
  induction tasks with
  | nil => nomatch ht
  | cons u tasks ih =>
    rw [List.map_cons, List.nodup_cons] at hunique
    obtain ⟨hfresh, hunique⟩ := hunique
    rcases List.mem_cons.mp ht with rfl | ht
    · have hothers : tasks.filter (·.id != t.id) = tasks := by
        rw [List.filter_eq_self]
        intro u hu
        exact bne_iff_ne.mpr fun hid ↦ hfresh (List.mem_map.mpr ⟨u, hu, hid⟩)
      rw [List.filter_cons_of_neg (by simp), hothers]
    · have hne : u.id ≠ t.id := fun hid ↦ hfresh (List.mem_map.mpr ⟨t, ht, hid.symm⟩)
      rw [List.filter_cons_of_pos (by simpa using hne)]
      exact ((ih hunique ht).cons u).trans (.swap ..)

theorem eq_of_id_eq {u : QueueTask} (hunique : (tasks.map id).Nodup) (ht : t ∈ tasks)
    (hu : u ∈ tasks) (hid : u.id = t.id) : u = t := by
  rcases List.mem_cons.mp ((perm_without hunique ht).mem_iff.mp hu) with rfl | hu
  · rfl
  · exact absurd hid (bne_iff_ne.mp (List.mem_filter.mp hu).2)

theorem perm_marked (hunique : (tasks.map id).Nodup) (ht : t ∈ tasks) (state : TaskState) :
    (tasks.map fun u ↦ if u.id = t.id then { u with state } else u).Perm
      ({ t with state } :: tasks.filter (·.id != t.id)) := by
  refine ((perm_without hunique ht).map _).trans (.of_eq ?_)
  have hothers : ∀ u ∈ tasks.filter (·.id != t.id),
      (if u.id = t.id then { u with state } else u) = u :=
    fun u hu ↦ if_neg (bne_iff_ne.mp (List.mem_filter.mp hu).2)
  rw [List.map_cons, if_pos rfl, List.map_congr_left hothers, List.map_id']

end QueueTask

namespace SharedQueue

/-- The rings that tasks of a side have heard and not yet followed. -/
def heard (s : SharedQueue) (side : Side) : Nat := s.tasks.countP (·.hears side)

/-! ## What holds between the acts -/

/-- What holds of a queue and its tasks. Within an act there may be spare rings, which are in
nobody's hands: those of a task that runs, and those that are due. -/
structure Sound (spare : Side → Nat) (s : SharedQueue) : Prop where
  unique : (s.tasks.map QueueTask.id).Nodup
  able : ∀ t ∈ s.tasks, t.state ≠ .waiting → t.id ∈ s.runnable
  lined : ∀ side, (s.bell side).waiting.Nodup
  listed : ∀ side id, id ∈ (s.bell side).waiting ↔
    ∃ t ∈ s.tasks, t.id = id ∧ t.errand.side = side ∧ t.state = .waiting
  /-- Nobody waits at a closed queue. -/
  deserted : s.queue.closed = true → s.queue.events = [] ∧ ∀ side, (s.bell side).waiting = []
  /-- A move never waits for a place. -/
  hasty : ∀ t ∈ s.tasks, ∀ e, t.errand = .push e → e.isMove = true → t.state = .ready false
  bounded : s.queue.events.length ≤ s.queue.capacity
  /-- **For each opening there is a ring**, as long as anybody waits for one. -/
  served : ∀ side, (s.bell side).waiting ≠ [] →
    s.queue.openings side ≤ s.heard side + spare side

namespace Sound

variable {spare spare' : Side → Nat} {s s' : SharedQueue} {t : QueueTask} {side : Side}

theorem of_perm (h : Sound spare s) (hqueue : s'.queue = s.queue)
    (hbells : ∀ side, (s'.bell side).waiting = (s.bell side).waiting)
    (htasks : s'.tasks.Perm s.tasks) (hrunnable : s.runnable ⊆ s'.runnable) : Sound spare s' where
  unique := (htasks.map _).nodup_iff.mpr h.unique
  able t ht hstate := hrunnable (h.able t (htasks.mem_iff.mp ht) hstate)
  lined side := hbells side ▸ h.lined side
  listed side id := by
    rw [hbells side, h.listed side id]
    simp only [htasks.mem_iff]
  deserted := by
    intro hclosed
    rw [hqueue] at hclosed ⊢
    exact ⟨(h.deserted hclosed).1, fun side ↦ (hbells side).trans ((h.deserted hclosed).2 side)⟩
  hasty t ht := h.hasty t (htasks.mem_iff.mp ht)
  bounded := hqueue ▸ h.bounded
  served side hwaiting := by
    rw [hbells side] at hwaiting
    rw [hqueue, heard, htasks.countP_eq]
    exact h.served side hwaiting

/-- A task that goes leaves its ring behind. -/
theorem without (h : Sound spare s) (ht : t ∈ s.tasks) :
    Sound (fun side ↦ spare side + if t.hears side then 1 else 0) (s.without t.id) where
  unique := (List.filter_sublist.map _).nodup h.unique
  able u hu hstate := by
    obtain ⟨hu, hne⟩ := List.mem_filter.mp hu
    exact List.mem_filter.mpr ⟨h.able u hu hstate, hne⟩
  lined side := waiting_without s t.id side ▸ (h.lined side).filter _
  listed side id := by
    rw [waiting_without, List.mem_filter, h.listed side id]
    constructor
    · rintro ⟨⟨u, hu, rfl, hwaits⟩, hne⟩
      exact ⟨u, List.mem_filter.mpr ⟨hu, hne⟩, rfl, hwaits⟩
    · rintro ⟨u, hu, rfl, hwaits⟩
      obtain ⟨hu, hne⟩ := List.mem_filter.mp hu
      exact ⟨⟨u, hu, rfl, hwaits⟩, hne⟩
  deserted := by
    intro hclosed
    obtain ⟨hempty, hnobody⟩ := h.deserted hclosed
    refine ⟨hempty, fun side ↦ ?_⟩
    rw [waiting_without, hnobody side]
    rfl
  hasty u hu := h.hasty u (List.mem_filter.mp hu).1
  bounded := h.bounded
  served := by
    intro side hwaiting
    have hheard : s.heard side = (s.without t.id).heard side + if t.hears side then 1 else 0 :=
      ((QueueTask.perm_without h.unique ht).countP_eq _).trans List.countP_cons
    have hserved := h.served side fun hnobody ↦ hwaiting (by rw [waiting_without, hnobody]; rfl)
    change s.queue.openings side ≤ _
    omega

/-- A task that is able to run may take a ring that is spare. -/
theorem joins (h : Sound (fun side ↦ spare side + if t.hears side then 1 else 0) s)
    (hfresh : t.id ∉ s.tasks.map (·.id)) (hable : t.state ≠ .waiting)
    (hhasty : ∀ e, t.errand = .push e → e.isMove = true → t.state = .ready false) :
    Sound spare { s with tasks := t :: s.tasks, runnable := s.runnable ++ [t.id] } where
  unique := List.nodup_cons.mpr ⟨hfresh, h.unique⟩
  able u hu hstate := by
    rcases List.mem_cons.mp hu with rfl | hu
    · exact List.mem_append_right _ (List.mem_singleton_self _)
    · exact List.mem_append_left _ (h.able u hu hstate)
  lined := h.lined
  listed side id := by
    refine (h.listed side id).trans ⟨?_, ?_⟩
    · rintro ⟨u, hu, hwaits⟩
      exact ⟨u, List.mem_cons_of_mem _ hu, hwaits⟩
    · rintro ⟨u, hu, hid, hside, hstate⟩
      rcases List.mem_cons.mp hu with rfl | hu
      · exact absurd hstate hable
      · exact ⟨u, hu, hid, hside, hstate⟩
  deserted := h.deserted
  hasty u hu := by
    rcases List.mem_cons.mp hu with rfl | hu
    · exact hhasty
    · exact h.hasty u hu
  bounded := h.bounded
  served := by
    intro side hwaiting
    have hserved := h.served side hwaiting
    change s.queue.openings side ≤ (t :: s.tasks).countP (·.hears side) + spare side
    rw [List.countP_cons]
    unfold heard at hserved
    omega

theorem not_mem_waiting (h : Sound spare s) (ht : t ∈ s.tasks)
    (hwaits : t.errand.side = side → t.state ≠ .waiting) : t.id ∉ (s.bell side).waiting := by
  intro hlisted
  obtain ⟨u, hu, hid, hside, hstate⟩ := (h.listed side t.id).mp hlisted
  obtain rfl := QueueTask.eq_of_id_eq h.unique ht hu hid
  exact hwaits hside hstate

theorem mono (h : Sound spare s)
    (hle : ∀ side, (s.bell side).waiting ≠ [] → spare side ≤ spare' side) : Sound spare' s :=
  { h with
    served := fun side hwaiting ↦
      Nat.le_trans (h.served side hwaiting) (Nat.add_le_add_left (hle side hwaiting) _) }

/-- **A ring that is due reaches a task**, or there is none to reach. -/
theorem ring (h : Sound side.one s) : Sound (fun _ ↦ 0) (s.ring side) := by
  cases hwaiting : (s.bell side).waiting with
  | nil =>
    rw [ring_of_nobody hwaiting]
    have hnone : Sound (fun _ ↦ 0) s := by
      refine h.mono fun side' hwaiting' ↦ ?_
      have hne : side' ≠ side := by
        rintro rfl
        exact hwaiting' hwaiting
      exact Nat.le_of_eq (if_neg hne)
    refine hnone.of_perm (queue_hang ..) (fun side' ↦ ?_) (.of_eq (tasks_hang ..)) ?_
    · rw [bell_hang]
      split
      · subst_vars
        exact hwaiting.symm
      · rfl
    · exact fun _ hid ↦ runnable_hang s side _ ▸ hid
  | cons id rest =>
    rw [ring_of_waiting hwaiting]
    have hfirst : id ∈ (s.bell side).waiting := hwaiting ▸ List.mem_cons_self
    obtain ⟨t, ht, rfl, hside, hstate⟩ := (h.listed side id).mp hfirst
    -- The task leaves the list and comes back with the ring in its hands.
    have hjoined : Sound (fun _ ↦ 0) { s.without t.id with
        tasks := { t with state := .ready true } :: (s.without t.id).tasks
        runnable := (s.without t.id).runnable ++ [t.id] } := by
      refine joins (t := { t with state := .ready true }) ?_ (not_mem_without s t.id) nofun ?_
      · refine (h.without ht).mono fun side' _ ↦ ?_
        simp [QueueTask.hears, Side.one, hstate, hside]
      · intro e herrand hmove
        exact nomatch hstate.symm.trans (h.hasty t ht e herrand hmove)
    refine hjoined.of_perm (queue_hang ..) (fun side' ↦ ?_) ?_ ?_
    · change ((s.hang side _).bell side').waiting = ((s.without t.id).bell side').waiting
      rw [bell_hang, waiting_without]
      split
      · rename_i hside'
        subst hside'
        have hnodup := h.lined side'
        rw [hwaiting, List.nodup_cons] at hnodup
        rw [hwaiting, List.filter_cons_of_neg (by simp), filter_ne_of_not_mem hnodup.1]
      · rename_i hne
        refine (filter_ne_of_not_mem (h.not_mem_waiting ht fun hside' ↦ ?_)).symm
        exact absurd (hside'.symm.trans hside) hne
    · rw [wake, tasks_hang]
      exact QueueTask.perm_marked h.unique ht _
    · rw [wake, runnable_hang]
      exact List.append_subset.mpr
        ⟨fun id' hid' ↦ List.mem_append_left _ (List.mem_filter.mp hid').1,
          List.subset_append_right _ _⟩

theorem requeue {queue : Queue} (h : Sound spare s) (hopen : queue.closed = false)
    (hbounded : queue.events.length ≤ queue.capacity)
    (hcount : ∀ side, queue.openings side + spare side ≤ s.queue.openings side + spare' side) :
    Sound spare' { s with queue } :=
  { h with
    deserted := fun hclosed ↦ nomatch hopen.symm.trans hclosed
    bounded := hbounded
    served := by
      intro side hwaiting
      have hserved := h.served side hwaiting
      have hcount := hcount side
      change queue.openings side ≤ s.heard side + spare' side
      omega }

theorem of_closed (h : Sound spare s) (hclosed : s.queue.closed = true) : Sound spare' s :=
  h.mono fun side hwaiting ↦ absurd ((h.deserted hclosed).2 side) hwaiting

/-- An answer takes its opening and rings for the one that it makes. -/
theorem answers {errand : Errand} {r : ErrandResult} (h : Sound spare s)
    (hanswers : s.Answers errand r s') (hspare : ∀ side, spare side ≤ errand.takes side) :
    Sound (fun _ ↦ 0) s' := by
  cases hanswers with
  | @takes _ _ queue hpush hkept =>
    obtain ⟨hopen, hplaces, hqueue⟩ := Queue.of_tryPush hpush
    have hdue : Sound Side.consumers.one { s with queue } := by
      refine h.requeue (hqueue ▸ hopen) (hqueue ▸ hplaces.length_le h.bounded) fun side ↦ ?_
      have hcount := Queue.openings_tryPush hpush side
      have hspare := hspare side
      omega
    exact hdue.ring
  | drops hpush =>
    obtain ⟨hopen, hplaces, hqueue⟩ := Queue.of_tryPush hpush
    refine h.requeue (hqueue ▸ hopen) (hqueue ▸ hplaces.length_le h.bounded) fun side ↦ ?_
    have hcount := Queue.openings_of_dropped hpush side
    have hspare := hspare side
    omega
  | turnsAway hclosed => exact h.of_closed hclosed
  | @gives e queue hpop =>
    obtain ⟨rest, hevents, hqueue⟩ := Queue.of_tryPop hpop
    have hopen : s.queue.closed = false := Bool.eq_false_iff.mpr fun hclosed ↦
      nomatch hevents.symm.trans (h.deserted hclosed).1
    have hdue : Sound Side.producers.one { s with queue } := by
      refine h.requeue (hqueue ▸ hopen) ?_ fun side ↦ ?_
      · have hbounded := h.bounded
        rw [hevents] at hbounded
        exact hqueue ▸ Nat.le_of_succ_le hbounded
      · have hcount := Queue.openings_tryPop hpop side
        have hspare := hspare side
        omega
    exact hdue.ring
  | ends hclosed _ => exact h.of_closed hclosed

private theorem hears_le_takes (h : Sound spare s) (ht : t ∈ s.tasks) (side : Side) :
    (if t.hears side then 1 else 0) ≤ t.errand.takes side := by
  split
  · rename_i hhears
    obtain ⟨hstate, rfl⟩ : t.state = .ready true ∧ side = t.errand.side := by
      simpa [QueueTask.hears] using hhears
    cases herrand : t.errand with
    | push e =>
      have hlasting : ¬ e.isMove = true := fun hmove ↦
        nomatch hstate.symm.trans (h.hasty t ht e herrand hmove)
      exact Nat.le_of_eq (if_neg hlasting).symm
    | pop => exact Nat.le_refl _
  · exact Nat.zero_le _

/-- A task may wait when the queue has no opening for it, and need keep no ring. -/
theorem queues (h : Sound spare s) (hfresh : t.id ∉ s.tasks.map (·.id))
    (hstate : t.state = .waiting) (hlasting : ∀ e, t.errand = .push e → e.isMove = false)
    (hopen : s.queue.closed = false)
    (hnothing : s.queue.openings t.errand.side = 0)
    (hspare : ∀ side, side ≠ t.errand.side → spare side = 0) (hqueue : s'.queue = s.queue)
    (hbells : ∀ side, (s'.bell side).waiting =
      (s.bell side).waiting ++ if side = t.errand.side then [t.id] else [])
    (htasks : s'.tasks.Perm (t :: s.tasks)) (hrunnable : s.runnable ⊆ s'.runnable) :
    Sound (fun _ ↦ 0) s' where
  unique := (htasks.map _).nodup_iff.mpr (List.nodup_cons.mpr ⟨hfresh, h.unique⟩)
  able u hu hable := by
    rcases List.mem_cons.mp (htasks.mem_iff.mp hu) with rfl | hu
    · exact absurd hstate hable
    · exact hrunnable (h.able u hu hable)
  lined side := by
    rw [hbells side]
    split
    · refine List.nodup_append.mpr ⟨h.lined side, List.pairwise_singleton .., ?_⟩
      rintro id hid _ hid' rfl
      obtain ⟨u, hu, huid, -⟩ := (h.listed side id).mp hid
      exact hfresh (List.mem_map.mpr ⟨u, hu, huid.trans (List.mem_singleton.mp hid')⟩)
    · rw [List.append_nil]
      exact h.lined side
  listed side id := by
    rw [hbells side, List.mem_append, h.listed side id]
    simp only [htasks.mem_iff, List.mem_cons]
    constructor
    · rintro (⟨u, hu, hwaits⟩ | hid)
      · exact ⟨u, .inr hu, hwaits⟩
      · split at hid
        · rename_i hside
          exact ⟨t, .inl rfl, (List.mem_singleton.mp hid).symm, hside.symm, hstate⟩
        · nomatch hid
    · rintro ⟨u, rfl | hu, hid, hside, hwaits⟩
      · rw [if_pos hside.symm]
        exact .inr (hid ▸ List.mem_singleton_self _)
      · exact .inl ⟨u, hu, hid, hside, hwaits⟩
  deserted := by
    intro hclosed
    rw [hqueue, hopen] at hclosed
    nomatch hclosed
  hasty u hu e herrand hmove := by
    rcases List.mem_cons.mp (htasks.mem_iff.mp hu) with rfl | hu
    · exact nomatch (hlasting e herrand).symm.trans hmove
    · exact h.hasty u hu e herrand hmove
  bounded := hqueue ▸ h.bounded
  served := by
    intro side hwaiting
    by_cases hside : side = t.errand.side
    · rw [hside, hqueue, hnothing]
      exact Nat.zero_le _
    · rw [hbells side, if_neg hside, List.append_nil] at hwaiting
      have hserved := h.served side hwaiting
      rw [hspare side hside] at hserved
      have hhears : ¬ t.hears side = true := by simp [QueueTask.hears, hstate]
      rw [hqueue, heard, htasks.countP_eq, List.countP_cons, if_neg hhears]
      exact hserved

end Sound

/-! ## Tasks that end, wait and begin -/

theorem Lacks.openings_eq {s : SharedQueue} {errand : Errand} (h : s.Lacks errand) :
    s.queue.closed = false ∧ s.queue.openings errand.side = 0
      ∧ ∀ e, errand = .push e → e.isMove = false := by
  cases h with
  | place hopen hplace =>
    obtain ⟨hfull, hlasting, he⟩ := Queue.full_of_place? hplace
    refine ⟨hopen, ?_, ?_⟩
    · have hnone : s.queue.events.countP Event.isMove = 0 :=
        List.countP_eq_zero.mpr fun x hx ↦ Bool.eq_false_iff.mp (hlasting x hx)
      exact Nat.add_eq_zero_iff.mpr ⟨Nat.sub_eq_zero_of_le hfull, hnone⟩
    · rintro _ ⟨⟩
      exact he
  | event hopen hempty => exact ⟨hopen, List.length_eq_zero_iff.mpr hempty, nofun⟩

namespace Sound

variable {s s' : SharedQueue} {t : QueueTask} {id : Nat}

theorem forget_eq {spare : Side → Nat} (h : Sound spare s) (ht : t ∈ s.tasks)
    (hable : t.state ≠ .waiting) : s.forget t.id = s.without t.id := by
  have hbells : ∀ side, (s.bell side).waiting.filter (· != t.id) = (s.bell side).waiting :=
    fun side ↦ filter_ne_of_not_mem (h.not_mem_waiting ht fun _ ↦ hable)
  have hready : s.ready.waiting.filter (· != t.id) = s.ready.waiting := hbells .consumers
  have hspace : s.space.waiting.filter (· != t.id) = s.space.waiting := hbells .producers
  rw [SharedQueue.without, hready, hspace]
  rfl

/-- A task that gets its answer ends. -/
theorem finishes {r : ErrandResult} (h : Sound (fun _ ↦ 0) s) (htask : s.task? id = some t)
    (hable : t.state ≠ .waiting) (hanswers : (s.busy id).Answers t.errand r s') :
    Sound (fun _ ↦ 0) (s'.forget id) := by
  obtain ⟨ht, rfl⟩ := task?_eq_some htask
  have hlist : ∀ side, t.id ∉ ((s.busy t.id).bell side).waiting := by
    intro side
    have hbell : (s.busy t.id).bell side = s.bell side := by cases side <;> rfl
    exact hbell ▸ h.not_mem_waiting ht fun _ ↦ hable
  have hforget : (s.busy t.id).forget t.id = s.without t.id := by
    rw [← h.forget_eq ht hable]
    simp [busy, forget]
  have hforgotten := hanswers.forget hlist
  rw [hforget] at hforgotten
  refine (h.without ht).answers hforgotten fun side ↦ ?_
  rw [Nat.zero_add]
  exact h.hears_le_takes ht side

/-- A task that finds nothing waits. A ring it has heard was for an opening that is gone. -/
theorem waits (h : Sound (fun _ ↦ 0) s) (htask : s.task? id = some t)
    (hable : t.state ≠ .waiting) (hlacks : (s.busy id).Lacks t.errand) :
    Sound (fun _ ↦ 0) (((s.busy id).usePermit t.errand).wait id t.errand) := by
  obtain ⟨ht, rfl⟩ := task?_eq_some htask
  obtain ⟨hopen, hnothing, hlasting⟩ := hlacks.openings_eq
  rw [wait_eq, usePermit_eq]
  have hgone := h.without ht
  rw [← h.forget_eq ht hable] at hgone
  refine queues (t := { t with state := .waiting }) hgone (not_mem_without s t.id) rfl hlasting
    hopen hnothing ?_ ?_ ?_ ?_ ?_
  · intro side hside
    simp [QueueTask.hears, hside]
  · rw [queue_hang, queue_hang]
    rfl
  · intro side
    obtain ⟨_, errand, _⟩ := t
    cases errand <;> cases side <;> simp [bell, hang, busy, SharedQueue.forget, Errand.side]
  · rw [tasks_hang]
    exact QueueTask.perm_marked h.unique ht _
  · rw [runnable_hang, runnable_hang]
    exact List.Subset.refl _

/-- A task that is cancelled passes its ring on. -/
theorem cancel (h : Sound (fun _ ↦ 0) s) (htask : s.task? id = some t) :
    Sound (fun _ ↦ 0) (s.cancel id) := by
  rw [cancel_eq htask]
  obtain ⟨ht, rfl⟩ := task?_eq_some htask
  split
  · rename_i hstate
    refine ((h.without ht).mono fun side _ ↦ ?_).ring
    simp [QueueTask.hears, Side.one, hstate]
  · rename_i hstate
    refine (h.without ht).mono fun side _ ↦ ?_
    simp [QueueTask.hears, hstate]

theorem spawn (h : Sound (fun _ ↦ 0) s) (hfresh : s.task? id = none) (errand : Errand) :
    Sound (fun _ ↦ 0) (s.spawn id errand) := by
  have hnone : id ∉ s.tasks.map (·.id) := by
    intro hid
    obtain ⟨u, hu, rfl⟩ := List.mem_map.mp hid
    exact absurd (beq_self_eq_true u.id) (List.find?_eq_none.mp hfresh u hu)
  have hjoined : Sound (fun _ ↦ 0) { s with
      tasks := ⟨id, errand, .ready false⟩ :: s.tasks, runnable := s.runnable ++ [id] } :=
    joins (t := ⟨id, errand, .ready false⟩) h hnone nofun fun _ _ _ ↦ rfl
  refine hjoined.of_perm rfl (fun side ↦ ?_) (List.perm_append_singleton ..) (List.Subset.refl _)
  cases side <;> rfl

/-- Closing wakes everybody who waits. -/
theorem close (h : Sound (fun _ ↦ 0) s) : Sound (fun _ ↦ 0) s.close.2 := by
  have hnobody : ∀ side, (s.close.2.bell side).waiting = [] := by
    intro side
    rw [close_eq]
    cases side <;> rfl
  -- Whoever waits is on the list of its own side, so that the two bells wake all of them.
  have hlisted : ∀ t ∈ s.tasks, t.state = .waiting →
      t.id ∈ s.ready.waiting ++ s.space.waiting := by
    intro t ht hstate
    have hon := (h.listed t.errand.side t.id).mpr ⟨t, ht, rfl, rfl, hstate⟩
    rw [List.mem_append]
    cases herrand : t.errand with
    | push e => exact .inr (herrand ▸ hon :)
    | pop => exact .inl (herrand ▸ hon :)
  have htasks : ∀ t ∈ s.close.2.tasks, t.id ∈ s.close.2.runnable ∧ t.state ≠ .waiting
      ∧ ∀ e, t.errand = .push e → e.isMove = true → t.state = .ready false := by
    rw [close_eq]
    intro u hu
    obtain ⟨t, ht, rfl⟩ := List.mem_map.mp hu
    split
    · rename_i hon
      exact ⟨List.mem_append_right _ hon, nofun, fun _ _ _ ↦ rfl⟩
    · rename_i hoff
      have hable : t.state ≠ .waiting := fun hstate ↦ hoff (hlisted t ht hstate)
      exact ⟨List.mem_append_left _ (h.able t ht hable), hable, h.hasty t ht⟩
  have hids : s.close.2.tasks.map (·.id) = s.tasks.map (·.id) := by
    rw [close_eq, List.map_map]
    refine List.map_congr_left fun t _ ↦ ?_
    simp only [Function.comp_apply]
    split <;> rfl
  have hqueue : s.close.2.queue = s.queue.close.2 := by rw [close_eq]
  exact {
    unique := hids ▸ h.unique
    able := fun t ht _ ↦ (htasks t ht).1
    lined := fun side ↦ hnobody side ▸ .nil
    listed := by
      intro side id
      rw [hnobody side]
      constructor
      · nofun
      · rintro ⟨t, ht, -, -, hstate⟩
        exact absurd hstate (htasks t ht).2.1
    deserted := fun _ ↦ ⟨hqueue ▸ rfl, hnobody⟩
    hasty := fun t ht ↦ (htasks t ht).2.2
    bounded := hqueue ▸ Nat.zero_le _
    served := fun side hwaiting ↦ absurd (hnobody side) hwaiting }

end Sound

/-! ## Runs -/

theorem sound_new (capacity : Nat) : Sound (fun _ ↦ 0) (new capacity) where
  unique := .nil
  able := nofun
  lined side := by cases side <;> exact .nil
  listed side id := by cases side <;> exact ⟨nofun, nofun⟩
  deserted := nofun
  hasty := nofun
  bounded := Nat.zero_le _
  served side := by cases side <;> exact fun hwaiting ↦ absurd rfl hwaiting

/-- **One act keeps what holds.** -/
theorem Sound.act {s : SharedQueue} (h : Sound (fun _ ↦ 0) s) (a : Act) :
    Sound (fun _ ↦ 0) (s.act a).2 := by
  generalize hafter : (s.act a).2 = s'
  have hdoes := s.does_act a
  rw [hafter] at hdoes
  generalize (s.act a).1 = happening at hdoes
  cases hdoes with
  | nothing => exact h
  | tries hanswers => exact h.answers hanswers fun _ ↦ Nat.zero_le _
  | triesInVain _ => exact h
  | closes => exact h.close
  | starts hfresh => exact h.spawn hfresh _
  | finishes htask hable hanswers => exact h.finishes htask hable hanswers
  | waits htask hable hlacks => exact h.waits htask hable hlacks
  | cancels htask => exact h.cancel htask

theorem Sound.perform {s : SharedQueue} (h : Sound (fun _ ↦ 0) s) (acts : List Act) :
    Sound (fun _ ↦ 0) (s.perform acts).2 := by
  induction acts generalizing s with
  | nil => exact h
  | cons a acts ih => exact ih (h.act a)

/-- Every task that has heard a ring of its own has run since. -/
def Rested (s : SharedQueue) : Prop := ∀ t ∈ s.tasks, t.state ≠ .ready true

/-- **No ring is lost.** Whatever is pushed and popped, and whichever tasks begin, run and are
cancelled in whatever order: a task that does not wait is able to run, and once those that were
woken have run, a consumer waits only at an open and empty queue, and a producer only at an open
queue that is full and has no move to give up. -/
theorem no_ring_lost (capacity : Nat) (acts : List Act) :
    let s := ((new capacity).perform acts).2
    (∀ t ∈ s.tasks, t.state ≠ .waiting → t.id ∈ s.runnable) ∧
      (s.Rested → ∀ t ∈ s.tasks, t.state = .waiting → s.queue.closed = false ∧
        match t.errand with
        | .pop => s.queue.events = []
        | .push _ => s.queue.events.length = s.queue.capacity
            ∧ ∀ e ∈ s.queue.events, e.isMove = false) := by
  intro s
  have h : Sound (fun _ ↦ 0) s := (sound_new capacity).perform acts
  refine ⟨h.able, fun hrested t ht hstate ↦ ?_⟩
  have hwaiting : (s.bell t.errand.side).waiting ≠ [] :=
    List.ne_nil_of_mem ((h.listed t.errand.side t.id).mpr ⟨t, ht, rfl, rfl, hstate⟩)
  have hopen : s.queue.closed = false :=
    Bool.eq_false_iff.mpr fun hclosed ↦ hwaiting ((h.deserted hclosed).2 _)
  have hheard : s.heard t.errand.side = 0 := by
    refine List.countP_eq_zero.mpr fun u hu hhears ↦ hrested u hu ?_
    exact (of_decide_eq_true hhears).1
  -- At rest no task that was woken is still to come, so an opening would be one without a ring.
  have hnothing : s.queue.openings t.errand.side = 0 := by
    have hserved := h.served _ hwaiting
    omega
  refine ⟨hopen, ?_⟩
  cases herrand : t.errand with
  | push e =>
    rw [herrand] at hnothing
    obtain ⟨hfull, hlasting⟩ := Nat.add_eq_zero_iff.mp hnothing
    exact ⟨Nat.le_antisymm h.bounded (Nat.sub_eq_zero_iff_le.mp hfull),
      fun x hx ↦ Bool.eq_false_iff.mpr (List.countP_eq_zero.mp hlasting x hx)⟩
  | pop =>
    rw [herrand] at hnothing
    exact List.length_eq_zero_iff.mp hnothing

/-- A place is made for a producer that waits, and another push takes it first. -/
theorem no_ring_lost_place_taken :
    let key (code : UInt16) : Event := .key code true ⟨0⟩ 5
    let acts : List Act := [.tryPush (key 1), .start 7 (.push (key 2)), .run 7, .tryPop,
      .tryPush (key 3), .run 7]
    ∃ s, s = ((new 1).perform acts).2 ∧ s.Rested ∧ s.tasks = [⟨7, .push (key 2), .waiting⟩] ∧
      s.queue.closed = false ∧ s.queue.events.length = s.queue.capacity := by
  intro key acts
  have htasks : ((new 1).perform acts).2.tasks = [⟨7, .push (key 2), .waiting⟩] := by
    decide +kernel
  have hrested : ((new 1).perform acts).2.Rested := by
    simp [Rested, htasks]
  have ht : ⟨7, .push (key 2), .waiting⟩ ∈ ((new 1).perform acts).2.tasks := by
    simp [htasks]
  obtain ⟨hopen, hfull, -⟩ := (no_ring_lost 1 acts).2 hrested _ ht rfl
  exact ⟨_, rfl, hrested, htasks, hopen, hfull⟩

end SharedQueue

end DeskLink
