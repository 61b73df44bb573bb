import DeskLink.Proofs.Client.Moves

/-!
# How many sessions a client owns

A client is meant to own one session at most. An attempt therefore sees to the session that is there
before it dials, and then there is none when it begins its own, provided that no other attempt has
begun one in the meantime. So all is well as long as no two attempts are under way at a time,
whatever else happens. The invariant is `Sound`: every session that lives is the one of the
connection, and an attempt past its look at the connection finds that none does.

Nothing keeps callers from overlapping, though. The attempt that comes last then takes over the
connection, and the session that the other one has begun goes on. Nobody finds it any more:
`owns_two`.
-/

namespace DeskLink.Client

open Session (Ending)

/-! ## One session or none -/

namespace Guest

variable {g g' : Guest} {key : Nat} {id : SessionId}

/-- No session lives. -/
def Idle (g : Guest) : Prop := ∀ key id, ¬ g.Lives key id

/-- Every session that lives is the one that the client is connected by. -/
def Sole (g : Guest) : Prop := ∀ key id, g.Lives key id → g.active = some ⟨id, key⟩

theorem Idle.sole (h : g.Idle) : g.Sole := fun key id hlives ↦ (h key id hlives).elim

theorem lives_of_keeps (hkeeps : g.Keeps g') (h : g'.Lives key id) : g.Lives key id := by
  rwa [Lives, hkeeps.record_eq] at h

theorem lives_of_ends {ended : Nat} {name : SessionId} {e : Ending}
    (hrecord : g'.record = g.record.set ended (name, some e)) (h : g'.Lives key id) :
    ended ≠ key ∧ g.Lives key id := by
  rw [Lives, hrecord] at h
  by_cases hsame : ended = key
  · subst hsame
    obtain ⟨hlt, -⟩ := List.getElem?_eq_some_iff.mp h
    rw [List.getElem?_set_self (List.length_set ▸ hlt)] at h
    nomatch h
  · rw [List.getElem?_set_ne hsame] at h
    exact ⟨hsame, h⟩

theorem lives_of_wanes (hwanes : g.Wanes g') (h : g'.Lives key id) : g.Lives key id := by
  cases hwanes with
  | keeps hkeeps => exact lives_of_keeps hkeeps h
  | ends _ hrecord _ => exact (lives_of_ends hrecord h).2

theorem Idle.wanes (h : g.Idle) (hwanes : g.Wanes g') : g'.Idle :=
  fun key id hlives ↦ h key id (lives_of_wanes hwanes hlives)

theorem Sole.keeps (h : g.Sole) (hkeeps : g.Keeps g') : g'.Sole := fun key id hlives ↦ by
  rw [hkeeps.active_eq, h key id (lives_of_keeps hkeeps hlives)]

theorem Sole.wanes (h : g.Sole) (hwanes : g.Wanes g') : g'.Sole := by
  cases hwanes with
  | keeps hkeeps => exact h.keeps hkeeps
  | @ends ended name e hended hrecord hactive =>
    -- The session that ended was the only one, so the connection need not be looked at.
    refine Idle.sole fun key id hlives ↦ ?_
    obtain ⟨hne, hlives⟩ := lives_of_ends hrecord hlives
    have hsame := (h ended name hended).symm.trans (h key id hlives)
    exact hne (congrArg Active.run (Option.some.inj hsame))

/-- **A session that begins is the only one exactly if none lived.** -/
theorem sole_iff_of_begins (hbegins : g.Begins g' id) : g'.Sole ↔ g.Idle := by
  constructor
  · -- A session that lived goes on under its old key, and the client is connected by the new one.
    intro h key name hlives
    obtain ⟨hlt, -⟩ := List.getElem?_eq_some_iff.mp hlives
    have hlives' : g'.Lives key name := by
      rw [Lives, hbegins.record_eq, List.getElem?_append_left hlt]
      exact hlives
    have hsame := hbegins.active_eq.symm.trans (h key name hlives')
    have hkey : g.record.length = key := congrArg Active.run (Option.some.inj hsame)
    omega
  · intro h key name hlives
    rw [Lives, hbegins.record_eq, List.getElem?_append] at hlives
    split at hlives
    · exact (h key name hlives).elim
    · obtain ⟨hlt, heq⟩ := List.getElem?_eq_some_iff.mp hlives
      rw [List.length_singleton] at hlt
      obtain rfl : key = g.record.length := by omega
      obtain rfl : id = name := by simpa using heq
      exact hbegins.active_eq

end Guest

namespace Attempt

variable {a a' : Attempt} {g g' : Guest}

/-- What an attempt has seen to. -/
def Cleared (a : Attempt) (g : Guest) : Prop :=
  match a.phase with
  | .starting | .ended _ => True
  | .closing key => ∀ other id, g.Lives other id → other = key
  | .dialing _ | .negotiating .. => g.Idle

theorem Cleared.idle (h : a.Cleared g) (hpast : a.past = true) : g.Idle := by
  unfold past at hpast
  unfold Cleared at h
  split at hpast <;> simp_all

theorem cleared_of_idle (h : g.Idle) : a.Cleared g := by
  unfold Cleared
  split
  · trivial
  · trivial
  · exact fun other id hlives ↦ (h other id hlives).elim
  · exact h
  · exact h

theorem cleared_of_not_underWay (h : a.underWay = false) : a.Cleared g := by
  unfold underWay at h
  unfold Cleared
  split at h <;> simp_all

theorem Cleared.wanes (h : a.Cleared g) (hwanes : g.Wanes g') : a.Cleared g' := by
  unfold Cleared at h ⊢
  split
  · trivial
  · trivial
  · rename_i key hphase
    simp only [hphase] at h
    exact fun other id hlives ↦ h other id (Guest.lives_of_wanes hwanes hlives)
  · rename_i deadline hphase
    simp only [hphase] at h
    exact h.wanes hwanes
  · rename_i conduct stream hphase
    simp only [hphase] at h
    exact h.wanes hwanes

/-- An attempt that does not begin its session has seen to what it must have seen to. -/
theorem Turns.cleared (hturns : a.Turns g a' g') (h : a.Cleared g) (hsole : g.Sole) :
    (g.Keeps g' ∧ a'.Cleared g) ∨
      a.past = true ∧ a'.underWay = false ∧ ∃ id, g.Begins g' id := by
  cases hturns with
  | @closes active _ _ _ hactive hphase' hkeeps =>
    -- Only the session of the connection can live, and it is the one asked to close.
    refine .inl ⟨hkeeps, ?_⟩
    simp only [Cleared, hphase']
    intro other id hlives
    have hsame := (hsole other id hlives).symm.trans hactive
    exact congrArg Active.run (Option.some.inj hsame)
  | dials _ hactive _ hkeeps =>
    refine .inl ⟨hkeeps, cleared_of_idle fun key id hlives ↦ ?_⟩
    nomatch (hsole key id hlives).symm.trans hactive
  | @redials key e _ _ hphase hended _ hkeeps =>
    -- The session that could still live was waited for.
    refine .inl ⟨hkeeps, cleared_of_idle fun other id hlives ↦ ?_⟩
    simp only [Cleared, hphase] at h
    obtain rfl := h other id hlives
    nomatch hlives.ended?.symm.trans hended
  | goesOn hpast _ hkeeps => exact .inl ⟨hkeeps, cleared_of_idle (h.idle hpast)⟩
  | fails hpast _ hkeeps => exact .inl ⟨hkeeps, cleared_of_idle (h.idle hpast)⟩
  | begins hpast hphase' hbegins =>
    exact .inr ⟨hpast, by rw [underWay, hphase'], _, hbegins⟩

end Attempt

/-! ## Any act -/

namespace Calls

variable {c : Calls} {i j : Nat} {a b : Attempt}

/-- No two attempts are under way. -/
def Single (c : Calls) : Prop :=
  c.attempts.Pairwise fun a b ↦ ¬ (a.underWay = true ∧ b.underWay = true)

instance (c : Calls) : Decidable c.Single := inferInstanceAs (Decidable (List.Pairwise _ _))

theorem Single.not_underWay (h : c.Single) (hi : c.attempts[i]? = some a)
    (hj : c.attempts[j]? = some b) (hne : i ≠ j) (ha : a.underWay = true) :
    b.underWay = false := by
  obtain ⟨hilt, rfl⟩ := List.getElem?_eq_some_iff.mp hi
  obtain ⟨hjlt, rfl⟩ := List.getElem?_eq_some_iff.mp hj
  rw [Single, List.pairwise_iff_getElem] at h
  refine Bool.eq_false_iff.mpr fun hb ↦ ?_
  rcases Nat.lt_or_gt_of_ne hne with hlt | hlt
  · exact h i j hilt hjlt hlt ⟨ha, hb⟩
  · exact h j i hjlt hilt hlt ⟨hb, ha⟩

/-- What is true of a client at any time, as long as attempts do not overlap. -/
structure Sound (c : Calls) : Prop where
  sole : c.guest.Sole
  cleared : ∀ a ∈ c.attempts, a.Cleared c.guest

theorem Sound.act (hs : c.Sound) (hsingle : c.Single) (x : Act) : (c.act x).Sound := by
  rcases c.act_cases x with ⟨i, a, a', ha, hattempts, hturns⟩ | ⟨hwanes, hattempts⟩
  · have hcleared := hs.cleared a (List.mem_of_getElem? ha)
    rcases hturns.cleared hcleared hs.sole with ⟨hkeeps, hcleared'⟩ | ⟨hpast, hover, id, hbegins⟩
    · refine ⟨hs.sole.keeps hkeeps, fun b hb ↦ ?_⟩
      rcases List.mem_or_eq_of_mem_set (hattempts ▸ hb) with hold | rfl
      · exact (hs.cleared b hold).wanes (.keeps hkeeps)
      · exact hcleared'.wanes (.keeps hkeeps)
    · refine ⟨(Guest.sole_iff_of_begins hbegins).mpr (hcleared.idle hpast), fun b hb ↦ ?_⟩
      -- The other attempts rely on nothing yet, since this one was under way.
      obtain ⟨j, hj⟩ := List.getElem?_of_mem (hattempts ▸ hb)
      refine Attempt.cleared_of_not_underWay ?_
      by_cases hsame : i = j
      · subst hsame
        obtain ⟨hlt, -⟩ := List.getElem?_eq_some_iff.mp ha
        rw [List.getElem?_set_self hlt] at hj
        exact Option.some.inj hj ▸ hover
      · rw [List.getElem?_set_ne hsame] at hj
        exact hsingle.not_underWay ha hj hsame (Attempt.underWay_of_past hpast)
  · refine ⟨hs.sole.wanes hwanes, fun b hb ↦ ?_⟩
    rcases hattempts b hb with hold | hstarting
    · exact (hs.cleared b hold).wanes hwanes
    · exact Attempt.cleared_of_not_underWay (by rw [Attempt.underWay, hstarting])

/-- At no moment during these acts are two attempts under way. -/
def Alone (c : Calls) : List Act → Prop
  | [] => c.Single
  | x :: acts => c.Single ∧ (c.act x).Alone acts

instance : (c : Calls) → (acts : List Act) → Decidable (c.Alone acts)
  | c, [] => inferInstanceAs (Decidable c.Single)
  | c, x :: acts =>
    have := instDecidableAlone (c.act x) acts
    inferInstanceAs (Decidable (_ ∧ _))

theorem Sound.perform {acts : List Act} (hs : c.Sound) (halone : c.Alone acts) :
    (c.perform acts).Sound := by
  induction acts generalizing c with
  | nil => exact hs
  | cons x acts ih => exact ih (hs.act halone.1 x) halone.2

theorem sound_new (own : Hello) (prover : Prover) (inject : Injector) (tuning : Tuning) :
    (new own prover inject tuning).Sound where
  sole _ _ h := by simp [new, Guest.new, Guest.Lives, Guest.record] at h
  cleared _ h := nomatch h

/-- **As long as attempts do not overlap, a client owns at most one session.** The session that has
not ended is the one that it is connected by; it is found by asking for the status, and it is asked
to close by disconnecting. -/
theorem owns_one (own : Hello) (prover : Prover) (inject : Injector) (tuning : Tuning)
    (acts : List Act) (halone : (new own prover inject tuning).Alone acts) {key : Nat} {r : Run}
    (hr : ((new own prover inject tuning).perform acts).guest.runs[key]? = some r)
    (hended : r.ended = none) :
    let g := ((new own prover inject tuning).perform acts).guest
    g.status.session = some r.worker.session ∧
      g.disconnect r.worker.session = .ok (key, g.askToClose key .userInitiated) ∧
      ∀ (other : Nat) (r' : Run), g.runs[other]? = some r' → r'.ended = none → other = key := by
  intro g
  have hsole : g.Sole := ((sound_new own prover inject tuning).perform halone).sole
  have hactive := hsole key r.worker.session (Guest.lives_of_run hr hended)
  refine ⟨by rw [Guest.status, hactive, Option.map_some], ?_, fun other r' hr' hended' ↦ ?_⟩
  · simp only [Guest.disconnect, hactive, if_true]
  · have hsame := (hsole other _ (Guest.lives_of_run hr' hended')).symm.trans hactive
    exact congrArg Active.run (Option.some.inj hsame)

/-- A client is connected, and connected again. The first session is closed before the second one
begins, which is then the only one. -/
theorem owns_the_second :
    let acts := .connect "desk" :: (Act.goesOn 0 [] 7 ++ Act.welcome 0 ⟨⟨List.replicate 16 1, rfl⟩⟩)
      ++ .connect "desk" :: (Act.goesOn 1 [] 1
        ++ List.replicate 7 (.session 0 0 ⟨.new 1024, .new 1024⟩)
        ++ Act.goesOn 1 [] 7 ++ Act.welcome 1 ⟨⟨List.replicate 16 2, rfl⟩⟩)
    trusting.Alone acts ∧ ∃ r, (trusting.perform acts).guest.runs[1]? = some r ∧ r.ended = none ∧
      ∀ (other : Nat) (r' : Run), (trusting.perform acts).guest.runs[other]? = some r' →
        r'.ended = none → other = 1 := by
  intro acts
  have honly (acts : List Act) (halone : trusting.Alone acts) {key : Nat} {r : Run}
      (hr : (trusting.perform acts).guest.runs[key]? = some r) (hended : r.ended = none) :
      ∀ (other : Nat) (r' : Run), (trusting.perform acts).guest.runs[other]? = some r' →
        r'.ended = none → other = key :=
    (owns_one _ _ _ _ acts halone hr hended).2.2
  have halone : trusting.Alone acts := by decide +kernel
  have hlives : (trusting.perform acts).guest.Lives 1 ⟨⟨List.replicate 16 2, rfl⟩⟩ := by
    decide +kernel
  obtain ⟨r, hr, -, hended⟩ := hlives.exists_run
  exact ⟨halone, r, hr, hended, honly acts halone hr hended⟩

end Calls

/-! ## Sessions that nobody finds -/

namespace Guest

variable {g g' : Guest} {key : Nat} {id : SessionId}

/-- A session has begun, and the client is not connected by it. -/
structure Overlooks (g : Guest) (key : Nat) : Prop where
  begun : key < g.record.length
  astray : ∀ active, g.active = some active → active.run ≠ key

theorem Overlooks.keeps (h : g.Overlooks key) (hkeeps : g.Keeps g') : g'.Overlooks key :=
  ⟨hkeeps.record_eq ▸ h.begun, hkeeps.active_eq ▸ h.astray⟩

theorem Overlooks.wanes (h : g.Overlooks key) (hwanes : g.Wanes g') : g'.Overlooks key := by
  cases hwanes with
  | keeps hkeeps => exact h.keeps hkeeps
  | ends _ hrecord hactive =>
    refine ⟨by rw [hrecord, List.length_set]; exact h.begun, fun active hconnected ↦ ?_⟩
    rcases hactive with hsame | hnone
    · exact h.astray active (hsame.symm.trans hconnected)
    · nomatch hnone.symm.trans hconnected

theorem Overlooks.begins (h : g.Overlooks key) (hbegins : g.Begins g' id) : g'.Overlooks key := by
  have hbegun := h.begun
  refine ⟨?_, fun active hconnected ↦ ?_⟩
  · rw [hbegins.record_eq, List.length_append]
    omega
  · obtain rfl := Option.some.inj (hbegins.active_eq.symm.trans hconnected)
    exact Nat.ne_of_gt hbegun

end Guest

namespace Calls

variable {c : Calls} {key : Nat}

private theorem overlooks_act (h : c.guest.Overlooks key) (x : Act) :
    (c.act x).guest.Overlooks key := by
  rcases c.act_cases x with ⟨i, a, a', -, -, hturns⟩ | ⟨hwanes, -⟩
  · cases hturns with
    | begins _ _ hbegins => exact h.begins hbegins
    | closes _ _ _ hkeeps | dials _ _ _ hkeeps | redials _ _ _ hkeeps | goesOn _ _ hkeeps
    | fails _ _ hkeeps => exact h.keeps hkeeps
  · exact h.wanes hwanes

/-- **A session that is overlooked is never found again**, whatever happens. -/
theorem overlooks_perform (h : c.guest.Overlooks key) (acts : List Act) :
    (c.perform acts).guest.Overlooks key := by
  induction acts generalizing c with
  | nil => exact h
  | cons x acts ih => exact ih (overlooks_act h x)

/-- Two attempts overlap, and both find no connection. Both begin a session, and nobody finds the
first one any more. -/
theorem owns_two :
    let first : SessionId := ⟨⟨List.replicate 16 1, rfl⟩⟩
    let second : SessionId := ⟨⟨List.replicate 16 2, rfl⟩⟩
    let c := trusting.perform (.connect "desk" :: .connect "desk" ::
      (Act.goesOn 0 [] 7 ++ Act.goesOn 1 [] 7 ++ Act.welcome 0 first ++ Act.welcome 1 second))
    c.guest.Lives 0 first ∧ c.guest.Lives 1 second ∧ c.guest.status.session = some second ∧
      ∀ later, (c.perform later).guest.Overlooks 0 := by
  intro first second c
  have hfirst : c.guest.Lives 0 first := by decide +kernel
  have hactive : c.guest.active = some ⟨second, 1⟩ := by decide +kernel
  have hsecond : c.guest.Lives 1 second := by decide +kernel
  obtain ⟨hlt, -⟩ := List.getElem?_eq_some_iff.mp hfirst
  have hoverlooks : c.guest.Overlooks 0 := by
    refine ⟨hlt, fun active hconnected ↦ ?_⟩
    obtain rfl := Option.some.inj (hactive.symm.trans hconnected)
    exact Nat.one_ne_zero
  exact ⟨hfirst, hsecond, by rw [Guest.status, hactive, Option.map_some],
    overlooks_perform hoverlooks⟩

end Calls

end DeskLink.Client
