import DeskLink.Input.Queue

/-!
# What becomes of accepted events

A queue under pressure gives up pointer moves, so what it hands out is not what it took. But
it never changes an order and never gives up anything else: what has left the queue and what still
waits is, together and in this order, what was accepted with some moves left out. Closing leaves
out what was waiting, which was accepted last.
-/

namespace DeskLink

/-- The events that must not be lost on the way. -/
def lasting (events : List Event) : List Event := events.filter fun e ↦ !e.isMove

@[simp] theorem lasting_append (before after : List Event) :
    lasting (before ++ after) = lasting before ++ lasting after := List.filter_append ..

theorem lasting_of_isMove {e : Event} (h : e.isMove = true) : lasting [e] = [] := by
  simp [lasting, h]

/-- Whether an event that was answered like this has been taken. -/
def PushOutcome.accepts : PushOutcome → Bool
  | .droppedMove => false
  | .queued | .coalesced | .evictedOlderMove => true

namespace Queue

/-- Where an event comes to stand, and which move makes room for it. -/
inductive Places (capacity : Nat) (events : List Event) (e : Event) :
    PushOutcome → List Event → Prop where
  /-- It replaces the last event. -/
  | coalesces {before : List Event} {m : Event} (hevents : events = before ++ [m])
      (hold : m.isMove = true) (hnew : e.isMove = true) :
      Places capacity events e .coalesced (before ++ [e])
  | appends (hroom : events.length < capacity) :
      Places capacity events e .queued (events ++ [e])
  /-- The oldest move goes. -/
  | evicts {before after : List Event} {m : Event} (hfull : capacity ≤ events.length)
      (hevents : events = before ++ m :: after) (hold : m.isMove = true)
      (hfirst : ∀ x ∈ before, x.isMove = false) :
      Places capacity events e .evictedOlderMove (before ++ after ++ [e])
  /-- It goes itself. -/
  | drops (hfull : capacity ≤ events.length) (hlasting : ∀ x ∈ events, x.isMove = false)
      (hnew : e.isMove = true) : Places capacity events e .droppedMove events

theorem Places.length_le {capacity : Nat} {events events' : List Event} {e : Event}
    {outcome : PushOutcome} (h : Places capacity events e outcome events')
    (hbounded : events.length ≤ capacity) : events'.length ≤ capacity := by
  cases h <;> grind

private theorem of_tailIsMove {events : List Event} (h : tailIsMove events = true) :
    ∃ before m, events = before ++ [m] ∧ m.isMove = true := by
  unfold tailIsMove at h
  cases hlast : events.getLast? with
  | none => simp [hlast] at h
  | some m =>
    obtain ⟨before, rfl⟩ := List.getLast?_eq_some_iff.mp hlast
    exact ⟨before, m, rfl, by simpa [hlast] using h⟩

theorem places_of_place? {capacity : Nat} {events events' : List Event} {e : Event}
    {outcome : PushOutcome} (h : place? capacity events e = some (outcome, events')) :
    Places capacity events e outcome events' := by
  unfold place? at h
  split at h
  · rename_i hmoves
    obtain ⟨rfl, rfl⟩ := Prod.mk.inj (Option.some.inj h)
    obtain ⟨hnew, htail⟩ := (Bool.and_eq_true _ _).mp hmoves
    obtain ⟨before, m, rfl, hold⟩ := of_tailIsMove htail
    rw [List.dropLast_concat]
    exact .coalesces rfl hold hnew
  split at h
  · obtain ⟨rfl, rfl⟩ := Prod.mk.inj (Option.some.inj h)
    exact .appends ‹_›
  rename_i hfull
  split at h
  · rename_i hany
    obtain ⟨rfl, rfl⟩ := Prod.mk.inj (Option.some.inj h)
    obtain ⟨x, hx, hmove⟩ := List.any_eq_true.mp hany
    obtain ⟨m, before, after, hfirst, hold, hevents, herased⟩ := List.exists_of_eraseP hx hmove
    rw [herased]
    exact .evicts (Nat.le_of_not_lt hfull) hevents hold fun y hy ↦
      Bool.eq_false_iff.mpr (hfirst y hy)
  split at h
  · rename_i hnone hnew
    obtain ⟨rfl, rfl⟩ := Prod.mk.inj (Option.some.inj h)
    exact .drops (Nat.le_of_not_lt hfull)
      (fun x hx ↦ Bool.eq_false_iff.mpr fun hmove ↦ hnone (List.any_eq_true.mpr ⟨x, hx, hmove⟩))
      hnew
  · nomatch h

/-- An event without a place met a full queue that has no move to give up, and is none itself. -/
theorem full_of_place? {capacity : Nat} {events : List Event} {e : Event}
    (h : place? capacity events e = none) :
    capacity ≤ events.length ∧ (∀ x ∈ events, x.isMove = false) ∧ e.isMove = false := by
  unfold place? at h
  split at h
  · nomatch h
  split at h
  · nomatch h
  rename_i hfull
  split at h
  · nomatch h
  rename_i hnone
  split at h
  · nomatch h
  rename_i hnew
  exact ⟨Nat.le_of_not_lt hfull, fun x hx ↦ Bool.eq_false_iff.mpr fun hmove ↦
    hnone (List.any_eq_true.mpr ⟨x, hx, hmove⟩), Bool.eq_false_iff.mpr hnew⟩

/-- An event that is placed comes last, and at most a move makes room for it. -/
theorem Places.kept {capacity : Nat} {events events' : List Event} {e : Event}
    {outcome : PushOutcome} (h : Places capacity events e outcome events') :
    (outcome.accepts = false ∧ events' = events) ∨
      (outcome.accepts = true ∧ ∃ kept, events' = kept ++ [e] ∧ kept.Sublist events
        ∧ lasting kept = lasting events) := by
  cases h with
  | @coalesces before m hevents hold =>
    refine .inr ⟨rfl, before, rfl, hevents ▸ List.sublist_append_left .., ?_⟩
    rw [hevents, lasting_append, lasting_of_isMove hold, List.append_nil]
  | appends => exact .inr ⟨rfl, _, rfl, .refl _, rfl⟩
  | @evicts before after m _ hevents hold =>
    refine .inr ⟨rfl, before ++ after, rfl, ?_, ?_⟩
    · exact hevents ▸ (List.Sublist.refl before).append (List.sublist_cons_self m after)
    · rw [hevents, lasting_append, List.append_cons, lasting_append, lasting_append,
        lasting_of_isMove hold, List.append_nil]
  | drops => exact .inl ⟨rfl, rfl⟩

/-- What a push does to a queue that takes the event or discards it. -/
theorem of_tryPush {q q' : Queue} {e : Event} {outcome : PushOutcome}
    (h : q.tryPush e = .ok (outcome, q')) :
    q.closed = false ∧ Places q.capacity q.events e outcome q'.events
      ∧ q' = { q with events := q'.events, stats := q.stats.count outcome } := by
  unfold tryPush at h
  split at h
  · nomatch h
  rename_i hopen
  split at h
  · obtain ⟨rfl, rfl⟩ := Prod.mk.inj (Except.ok.inj h)
    exact ⟨Bool.eq_false_iff.mpr hopen, places_of_place? ‹_›, rfl⟩
  · nomatch h

theorem closed_of_tryPush {q q' : Queue} {e : Event} {outcome : PushOutcome}
    (h : q.tryPush e = .ok (outcome, q')) : q'.closed = q.closed := by
  obtain ⟨-, -, hq'⟩ := of_tryPush h
  rw [hq']

/-- How the events that a queue has accepted account for those that have left it and those that
wait in it. -/
structure Accounts (q : Queue) (accepted gone : List Event) : Prop where
  sublist : (gone ++ q.events).Sublist accepted
  lasting_isPrefix : lasting (gone ++ q.events) <+: lasting accepted
  lasting_eq : q.closed = false → lasting (gone ++ q.events) = lasting accepted

theorem accounts_new (capacity : Nat) : (new capacity).Accounts [] [] :=
  ⟨.refl _, List.prefix_refl _, fun _ ↦ rfl⟩

namespace Accounts

variable {q : Queue} {accepted gone : List Event}

theorem push {q' : Queue} {e : Event} {outcome : PushOutcome} (h : q.Accounts accepted gone)
    (hpush : q.tryPush e = .ok (outcome, q')) :
    q'.Accounts (if outcome.accepts then accepted ++ [e] else accepted) gone := by
  -- Only an open queue takes events, and of an open one nothing is missing but moves.
  obtain ⟨hopen, hplaces, -⟩ := of_tryPush hpush
  rcases hplaces.kept with ⟨haccepts, hsame⟩ | ⟨haccepts, kept, hkept, hsublist, hlasting⟩
  · rw [if_neg (Bool.eq_false_iff.mp haccepts)]
    exact ⟨hsame ▸ h.sublist, hsame ▸ h.lasting_isPrefix, fun _ ↦ hsame ▸ h.lasting_eq hopen⟩
  · have heq : lasting (gone ++ q'.events) = lasting (accepted ++ [e]) := by
      rw [hkept, ← List.append_assoc, lasting_append, lasting_append accepted, lasting_append gone,
        hlasting, ← lasting_append gone, h.lasting_eq hopen]
    have hgone : (gone ++ kept).Sublist accepted :=
      ((List.Sublist.refl gone).append hsublist).trans h.sublist
    rw [if_pos haccepts]
    refine ⟨?_, heq ▸ List.prefix_refl _, fun _ ↦ heq⟩
    rw [hkept, ← List.append_assoc]
    exact hgone.append_right [e]

theorem pop {e : Event} {rest : List Event} (h : q.Accounts accepted gone)
    (hevents : q.events = e :: rest) :
    Accounts { q with events := rest } accepted (gone ++ [e]) := by
  have happend : gone ++ [e] ++ rest = gone ++ q.events := by
    rw [hevents, List.append_assoc, List.singleton_append]
  constructor
  · exact happend ▸ h.sublist
  · exact happend ▸ h.lasting_isPrefix
  · exact fun hopen ↦ happend ▸ h.lasting_eq hopen

theorem close (h : q.Accounts accepted gone) : q.close.2.Accounts accepted gone := by
  constructor
  · exact (List.append_nil gone).symm ▸ (List.sublist_append_left _ _).trans h.sublist
  · have hleft : lasting gone <+: lasting (gone ++ q.events) := by
      rw [lasting_append]
      exact List.prefix_append _ _
    exact (List.append_nil gone).symm ▸ hleft.trans h.lasting_isPrefix
  · exact fun hopen ↦ nomatch hopen

end Accounts

end Queue

end DeskLink
