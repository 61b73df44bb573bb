import Mathlib.Data.List.Chain
import DeskLink.Proofs.Input.Books

/-!
# The shape of a queue, and what it makes of an event

A queue never holds two moves side by side, although moves are taken out of its middle: a move that
gives up its place stands between events that are no moves, so its neighbours do not meet as moves.
And a move that comes to stand behind another replaces it, whether there is room or not.

So four things decide what becomes of the next event: whether it merges with the tail, whether there
is room, whether a move can give up its place, and whether the event itself is a move.
`Queue.Warrants` says which of them lead to which answer, and exactly one answer is warranted.
-/

namespace DeskLink

/-- Not both events are moves. -/
def Apart (a b : Event) : Prop := ¬ (a.isMove = true ∧ b.isMove = true)

namespace Queue

/-- The event is a move and would come to stand behind one. -/
def Merges (events : List Event) (e : Event) : Prop :=
  e.isMove = true ∧ ∃ m ∈ events.getLast?, m.isMove = true

/-- What the events that wait, and the next one, must be like for it to be answered like this by an
open queue. -/
def Warrants (capacity : Nat) (events : List Event) (e : Event) : ErrandResult → Prop
  | .pushed .coalesced => Merges events e
  | .pushed .queued => ¬ Merges events e ∧ events.length < capacity
  | .pushed .evictedOlderMove =>
    ¬ Merges events e ∧ capacity ≤ events.length ∧ ∃ m ∈ events, m.isMove = true
  | .pushed .droppedMove =>
    capacity ≤ events.length ∧ (∀ x ∈ events, x.isMove = false) ∧ e.isMove = true
  | .refused (.full e') =>
    e' = e ∧ capacity ≤ events.length ∧ (∀ x ∈ events, x.isMove = false) ∧ e.isMove = false
  | .refused (.closed _) | .popped _ => False

variable {capacity : Nat} {events events' : List Event} {e : Event} {outcome : PushOutcome}
  {q q' : Queue} {happening : Option SharedQueue.Happening} {r : ErrandResult}

private theorem merges_iff : Merges events e ↔ (e.isMove && tailIsMove events) = true := by
  rw [Merges, Bool.and_eq_true, tailIsMove]
  cases hlast : events.getLast? with
  | none => simp
  | some m => simp

theorem not_merges_of_lasting (h : ∀ x ∈ events, x.isMove = false) : ¬ Merges events e := by
  rintro ⟨-, m, hm, hmove⟩
  rw [h m (List.mem_of_getLast? hm)] at hmove
  nomatch hmove

/-! ## The answer -/

/-- A place is found where it merges, and only there. -/
theorem coalesced_iff_merges (h : place? capacity events e = some (outcome, events')) :
    outcome = .coalesced ↔ Merges events e := by
  rw [merges_iff]
  unfold place? at h
  by_cases hmerges : (e.isMove && tailIsMove events) = true
  · rw [if_pos hmerges] at h
    obtain ⟨rfl, -⟩ := Prod.mk.inj (Option.some.inj h)
    exact iff_of_true rfl hmerges
  · rw [if_neg hmerges] at h
    refine iff_of_false ?_ hmerges
    rintro rfl
    split at h
    · simp at h
    · split at h
      · simp at h
      · split at h <;> simp at h

private theorem warrants_pushed (h : place? capacity events e = some (outcome, events')) :
    Warrants capacity events e (.pushed outcome) := by
  have hmerges := coalesced_iff_merges h
  have hplaces := places_of_place? h
  cases hplaces with
  | coalesces => exact hmerges.mp rfl
  | appends hroom => exact ⟨mt hmerges.mpr (by decide), hroom⟩
  | evicts hfull hevents hold =>
    refine ⟨mt hmerges.mpr (by decide), hfull, _, ?_, hold⟩
    rw [hevents]
    exact List.mem_append_right _ List.mem_cons_self
  | drops hfull hlasting hnew => exact ⟨hfull, hlasting, hnew⟩

private theorem warrants_refused (h : place? capacity events e = none) :
    Warrants capacity events e (.refused (.full e)) := ⟨rfl, full_of_place? h⟩

/-- **Two answers are not warranted at once.** -/
theorem Warrants.unique {r' : ErrandResult} (h : Warrants capacity events e r)
    (h' : Warrants capacity events e r') : r' = r := by
  -- A full queue without moves leaves no merging and nothing to evict, so five cases stay apart.
  have hnone : (∀ x ∈ events, x.isMove = false) →
      ¬ Merges events e ∧ ¬ ∃ m ∈ events, m.isMove = true := by
    intro hlasting
    refine ⟨not_merges_of_lasting hlasting, ?_⟩
    rintro ⟨m, hm, hmove⟩
    rw [hlasting m hm] at hmove
    nomatch hmove
  unfold Warrants at h h'
  split at h <;> split at h' <;> grind

/-! ## The shape -/

/-- What is true of a queue that was made for so many events. -/
structure Shaped (capacity : Nat) (q : Queue) : Prop where
  capacity_eq : q.capacity = max capacity 1
  bounded : q.events.length ≤ q.capacity
  apart : q.events.IsChain Apart

private theorem shaped_new (capacity : Nat) : (new capacity).Shaped capacity :=
  ⟨rfl, Nat.zero_le _, List.isChain_nil⟩

theorem isChain_concat (h : events.IsChain Apart) (hmerges : ¬ Merges events e) :
    (events ++ [e]).IsChain Apart := by
  refine List.isChain_append.mpr ⟨h, List.isChain_singleton e, ?_⟩
  rintro x hx y hy ⟨hold, hnew⟩
  obtain rfl : e = y := by simpa using hy
  exact hmerges ⟨hnew, x, hx, hold⟩

/-- The oldest move can be taken out: what stands before it holds none. -/
theorem isChain_without {before after : List Event} {m : Event}
    (h : (before ++ m :: after).IsChain Apart) (hfirst : ∀ x ∈ before, x.isMove = false) :
    (before ++ after).IsChain Apart := by
  obtain ⟨hbefore, hafter, -⟩ := List.isChain_append.mp h
  refine List.isChain_append.mpr ⟨hbefore, hafter.tail, ?_⟩
  rintro x hx y - ⟨hmove, -⟩
  rw [hfirst x (List.mem_of_getLast? hx)] at hmove
  nomatch hmove

private theorem not_merges_without {before after : List Event} {m : Event}
    (hfirst : ∀ x ∈ before, x.isMove = false) (h : ¬ Merges (before ++ m :: after) e) :
    ¬ Merges (before ++ after) e := by
  by_cases hafter : after = []
  · rw [hafter, List.append_nil]
    exact not_merges_of_lasting hfirst
  · have hlast : (before ++ m :: after).getLast? = (before ++ after).getLast? := by
      rw [List.getLast?_append_of_ne_nil _ (List.cons_ne_nil m after),
        List.getLast?_append_of_ne_nil _ hafter, List.getLast?_cons_of_ne_nil hafter]
    rwa [Merges, ← hlast]

/-- **No two moves come to stand side by side.** -/
theorem apart_of_place? (h : events.IsChain Apart)
    (hplace : place? capacity events e = some (outcome, events')) : events'.IsChain Apart := by
  have hmerges := coalesced_iff_merges hplace
  have hplaces := places_of_place? hplace
  cases hplaces with
  | @coalesces before m hevents hold hnew =>
    rw [hevents] at h
    obtain ⟨hbefore, -, hlast⟩ := List.isChain_append.mp h
    refine isChain_concat hbefore ?_
    rintro ⟨-, x, hx, hmove⟩
    exact hlast x hx m rfl ⟨hmove, hold⟩
  | appends => exact isChain_concat h (mt hmerges.mpr (by decide))
  | @evicts before after m hfull hevents hold hfirst =>
    rw [hevents] at h hmerges
    exact isChain_concat (isChain_without h hfirst)
      (not_merges_without hfirst (mt hmerges.mpr (by decide)))
  | drops => exact h

theorem place?_of_tryPush (h : q.tryPush e = .ok (outcome, q')) :
    place? q.capacity q.events e = some (outcome, q'.events) := by
  unfold tryPush at h
  split at h
  · nomatch h
  · split at h
    · obtain ⟨rfl, rfl⟩ := Prod.mk.inj (Except.ok.inj h)
      assumption
    · nomatch h

/-- **A turn keeps the shape.** -/
theorem Shaped.turn (h : q.Shaped capacity) (hturn : q.Turn happening q') :
    q'.Shaped capacity := by
  cases hturn with
  | rests | refuses | hasNone => exact h
  | takes hpush =>
    obtain ⟨-, hplaces, hq'⟩ := of_tryPush hpush
    have hcapacity : q'.capacity = q.capacity := hq' ▸ rfl
    refine ⟨hcapacity.trans h.capacity_eq, ?_, apart_of_place? h.apart (place?_of_tryPush hpush)⟩
    rw [hcapacity]
    exact hplaces.length_le h.bounded
  | gives hpop =>
    obtain ⟨rest, hevents, rfl⟩ := of_tryPop hpop
    have hbounded := h.bounded
    have hapart := h.apart
    rw [hevents] at hbounded hapart
    exact ⟨h.capacity_eq, Nat.le_of_succ_le hbounded, hapart.tail⟩
  | closes => exact ⟨h.capacity_eq, Nat.zero_le _, List.isChain_nil⟩

/-- What an open queue makes of an event, and what becomes of the queue. -/
theorem Turn.answers (hturn : q.Turn (some (.answered (.push e) r)) q') (hopen : q.closed = false) :
    Warrants q.capacity q.events e r ∧
      (∀ outcome, r = .pushed outcome → Places q.capacity q.events e outcome q'.events) ∧
      ∀ why, r = .refused why → q' = q := by
  cases hturn with
  | @takes _ outcome _ hpush =>
    have hplace := place?_of_tryPush hpush
    refine ⟨warrants_pushed hplace, ?_, nofun⟩
    rintro _ ⟨⟩
    exact places_of_place? hplace
  | refuses hpush =>
    rcases of_tryPush_error hpush with ⟨hclosed, -⟩ | ⟨-, hplace, rfl⟩
    · exact nomatch hopen.symm.trans hclosed
    · exact ⟨warrants_refused hplace, nofun, fun _ _ ↦ rfl⟩

end Queue

namespace SharedQueue

private theorem shaped_perform {s : SharedQueue} {capacity : Nat} (h : s.queue.Shaped capacity)
    (acts : List Act) : (s.perform acts).2.queue.Shaped capacity := by
  induction acts generalizing s with
  | nil => exact h
  | cons a acts ih =>
    rw [perform]
    exact ih (h.turn (s.turn_act a))

/-- **What waits decides what becomes of the next event.** Whatever has been pushed, popped and
closed, no more events wait than there is room for, and no two moves stand side by side. The next
event that is pushed while the queue is open, at once or by a task that runs, gets the one answer
that is warranted by what waits: whoever tries at once gets one. If it is not refused, it comes to
stand as `Queue.Places` says: in place of the move at the tail, at the end, at the end after the
oldest move has gone, or nowhere. If it is refused, nothing has changed, it is no move, and neither
is any of the events that fill the queue. -/
theorem shape_decides (capacity : Nat) (acts : List Act) :
    let s := ((new capacity).perform acts).2
    let room := max capacity 1
    s.queue.events.length ≤ room ∧ s.queue.events.IsChain Apart ∧
    (∀ e, ∃ r, (s.act (.tryPush e)).1 = some (.answered (.push e) r)) ∧
    ∀ a e r, s.queue.closed = false → (s.act a).1 = some (.answered (.push e) r) →
      let events' := (s.act a).2.queue.events
      (∀ r', Queue.Warrants room s.queue.events e r' ↔ r' = r) ∧
      (∀ outcome, r = .pushed outcome → Queue.Places room s.queue.events e outcome events') ∧
      ∀ why, r = .refused why → why = .full e ∧ (s.act a).2.queue = s.queue ∧
        s.queue.events.length = room ∧ e.isMove = false ∧
        ∀ x ∈ s.queue.events, x.isMove = false := by
  intro s room
  have hshaped : s.queue.Shaped capacity :=
    shaped_perform (s := new capacity) (Queue.shaped_new capacity) acts
  have hroom : s.queue.capacity = room := hshaped.capacity_eq
  have hbounded : s.queue.events.length ≤ room := hroom ▸ hshaped.bounded
  refine ⟨hbounded, hshaped.apart, fun e ↦ ⟨_, rfl⟩, fun a e r hopen hact ↦ ?_⟩
  have hturn := s.turn_act a
  rw [hact] at hturn
  obtain ⟨hwarrants, hplaces, hrefused⟩ := hturn.answers hopen
  rw [hroom] at hwarrants hplaces
  refine ⟨fun r' ↦ ⟨fun h ↦ hwarrants.unique h, fun h ↦ h ▸ hwarrants⟩, hplaces, ?_⟩
  rintro why rfl
  cases why with
  | closed => exact hwarrants.elim
  | full =>
    obtain ⟨rfl, hfull, hlasting, hnew⟩ := hwarrants
    exact ⟨rfl, hrefused _ rfl, Nat.le_antisymm hbounded hfull, hnew, hlasting⟩

/-- A full queue has one move, in its middle. It gives up its place to a key, and then the next key
is refused. -/
theorem shape_decides_full :
    let key (code : UInt16) : Event := .key code true ⟨0⟩ 5
    let acts : List Act := [.tryPush (key 1), .tryPush (.move 2 0 5), .tryPush (key 3)]
    let s := ((new 3).perform acts).2
    let s' := ((new 3).perform (acts ++ [.tryPush (key 4)])).2
    Queue.Places 3 s.queue.events (key 4) .evictedOlderMove
        (s.act (.tryPush (key 4))).2.queue.events ∧
      s'.queue.events = [key 1, key 3, key 4] ∧ (s'.act (.tryPush (key 5))).2.queue = s'.queue ∧
      ∀ x ∈ s'.queue.events, x.isMove = false := by
  intro key acts
  obtain ⟨-, -, -, hnext⟩ := shape_decides 3 acts
  obtain ⟨-, -, -, hnext'⟩ := shape_decides 3 (acts ++ [.tryPush (key 4)])
  obtain ⟨-, hplaces, -⟩ := hnext (.tryPush (key 4)) (key 4) _ (by decide +kernel) rfl
  obtain ⟨-, -, hrefused⟩ := hnext' (.tryPush (key 5)) (key 5) _ (by decide +kernel) rfl
  obtain ⟨-, hsame, -, -, hlasting⟩ := hrefused (.full (key 5)) (by decide +kernel)
  exact ⟨hplaces _ (by decide +kernel), by decide +kernel, hsame, hlasting⟩

end SharedQueue

end DeskLink
