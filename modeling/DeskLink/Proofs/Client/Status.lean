import DeskLink.Proofs.Client.Story

/-!
# What a client says about its connection

The status of a client is put together from fields that attempts and sessions write, each at its own
time: the connection when an attempt returns and when a session ends, the last error when an attempt
dials or fails and when a session ends with one, the round trip when an attempt returns and when a
session measures one. As long as attempts do not overlap these fields fit together, since no session
lives while an attempt dials, and what has been written since is the story of that attempt and of
its session alone. `Stage` lists how far that can have come.

Who waits for the end of a session is told how it ended, no matter whether it has ended before,
since the client keeps the end that came last.
-/

namespace DeskLink.Client

open Session (Worker Ending)

/-! ## What is remembered of the sessions -/

namespace Guest

variable {g g' : Guest} {key : Nat} {id : SessionId} {e : Ending}

/-- The sessions that have ended, with their ends. -/
def endings (record : List (SessionId × Option Ending)) : List (SessionId × Ending) :=
  record.filterMap fun x ↦ x.2.map (x.1, ·)

/-- A client that is connected is connected by its last session, and the end that it remembers is
that of the last session that has ended. -/
structure Remembers (g : Guest) : Prop where
  latest : ∀ active, g.active = some active → active.run + 1 = g.record.length
  noted : g.lastEnd = (endings g.record).getLast?

theorem Remembers.same (h : g.Remembers) (hkeeps : g.Keeps g') (hend : g'.lastEnd = g.lastEnd) :
    g'.Remembers where
  latest := by
    rw [hkeeps.active_eq, hkeeps.record_eq]
    exact h.latest
  noted := by rw [hend, hkeeps.record_eq, h.noted]

theorem Remembers.begins (h : g.Remembers) (hbegins : g.Begins g' id)
    (hend : g'.lastEnd = g.lastEnd) : g'.Remembers where
  latest active hactive := by
    obtain rfl := Option.some.inj (hbegins.active_eq.symm.trans hactive)
    rw [hbegins.record_eq, List.length_append, List.length_singleton]
  noted := by
    have hsame : endings (g.record ++ [(id, none)]) = endings g.record := by simp [endings]
    rw [hend, hbegins.record_eq, hsame, h.noted]

/-- The only session that lives is the last one. -/
theorem Remembers.record_eq (h : g.Remembers) (hsole : g.Sole) (hlives : g.Lives key id) :
    ∃ before, g.record = before ++ [(id, none)] ∧ before.length = key := by
  have hlength := h.latest _ (hsole key id hlives)
  have hget : g.record[key]? = some (id, none) := hlives
  rcases List.eq_nil_or_concat' g.record with hnil | ⟨before, x, hrecord⟩
  · rw [hnil] at hget
    nomatch hget
  · rw [hrecord, List.length_append, List.length_singleton] at hlength
    obtain rfl : key = before.length := Nat.succ.inj hlength
    rw [hrecord, List.getElem?_concat_length] at hget
    exact ⟨before, Option.some.inj hget ▸ hrecord, rfl⟩

theorem Remembers.conclude {r : Run} (h : g.Remembers) (hsole : g.Sole)
    (hr : g.runs[key]? = some r) (hended : r.ended = none) (e : Ending) :
    (g.conclude key r e).Remembers where
  latest active hactive := by
    have hsame := hsole key _ (lives_of_run hr hended)
    simp [Guest.conclude, setRun, hsame] at hactive
  noted := by
    obtain ⟨before, hrecord, rfl⟩ := h.record_eq hsole (lives_of_run hr hended)
    have hset : (g.conclude before.length r e).record = before ++ [(r.worker.session, some e)] := by
      rw [record_conclude, hrecord, List.set_append_right _ _ (Nat.le_refl _), Nat.sub_self]
      rfl
    rw [hset]
    simp [endings, Guest.conclude]

/-- The end of a session is remembered until a later one has ended. -/
theorem Remembers.lastEnd_eq (h : g.Remembers) (hget : g.record[key]? = some (id, some e))
    (hlater : ∀ later, key < later → g.ended? later = none) : g.lastEnd = some (id, e) := by
  obtain ⟨hlt, hkey⟩ := List.getElem?_eq_some_iff.mp hget
  have hsplit : g.record = g.record.take key ++ (id, some e) :: g.record.drop (key + 1) := by
    rw [← hkey, ← List.drop_eq_getElem_cons hlt, List.take_append_drop]
  have hnone : endings (g.record.drop (key + 1)) = [] := by
    refine List.filterMap_eq_nil_iff.mpr fun x hx ↦ ?_
    obtain ⟨i, hi⟩ := List.getElem?_of_mem hx
    rw [List.getElem?_drop] at hi
    have hended := hlater (key + 1 + i) (by omega)
    rw [ended?_eq, hi, Option.bind_some] at hended
    rw [hended, Option.map_none]
  have hendings : endings g.record = endings (g.record.take key) ++ [(id, e)] := by
    conv_lhs => rw [hsplit]
    rw [endings, List.filterMap_append, List.filterMap_cons, ← endings, ← endings, hnone]
    rfl
  rw [h.noted, hendings, List.getLast?_concat]

private theorem wait_of_lastEnd (hend : g.lastEnd = some (id, e))
    (hother : ∀ active, g.active = some active → active.session ≠ id) :
    g.wait id = .ended e := by
  simp only [wait, hend]
  cases hactive : g.active with
  | none => simp
  | some active => simp [hother active hactive]

end Guest

/-! ## The latest attempt and its session -/

namespace Calls

variable {c c' : Calls} {news : Option Happening} {log after : List Happening} {key : Nat}
  {id : SessionId}

/-- What has been told since an attempt dialled last, and what the client is like then. -/
inductive Stage (c : Calls) : List Happening → Prop where
  | dialing (hidle : c.guest.Idle) (herror : c.guest.lastError = none) : Stage c []
  | failed {why : Failure} (hidle : c.guest.Idle) (hquiet : c.Quiet)
      (herror : c.guest.lastError = some why) : Stage c [.failed why]
  | connected {key : Nat} {id : SessionId} {tail : List Happening} (hlives : c.guest.Lives key id)
      (herror : c.guest.lastError = none)
      (hrtt : ∀ d, c.guest.lastRtt = some d → .measured key d ∈ tail)
      (htail : ∀ x ∈ tail, ∃ d, x = .measured key d) : Stage c (.returned key id :: tail)
  | ended {key : Nat} {id : SessionId} {tail : List Happening} {e : Ending}
      (hidle : c.guest.Idle) (hquiet : c.Quiet)
      (herror : ∀ why, c.guest.lastError = some why ↔ e = .error why)
      (htail : ∀ x ∈ tail, ∃ d, x = .measured key d) :
      Stage c (.returned key id :: tail ++ [.over key e])

theorem Sound.idle_of_not_quiet (h : c.Sound) (hpast : ¬ c.Quiet) : c.guest.Idle := by
  unfold Quiet at hpast
  push Not at hpast
  obtain ⟨a, ha, hpast⟩ := hpast
  exact (h.cleared a ha).idle (Bool.not_eq_false _ ▸ hpast)

/-- While a session lives, no attempt is past its look at the connection. -/
theorem Sound.quiet_of_lives (h : c.Sound) (hlives : c.guest.Lives key id) : c.Quiet := by
  by_contra hpast
  exact h.idle_of_not_quiet hpast key id hlives

private theorem Sound.idle_of_free {a : Attempt} (h : c.Sound) (ha : a ∈ c.attempts)
    (hfree : a.Free c.guest) : c.guest.Idle := by
  intro other id hlives
  rcases hfree with ⟨-, hnone⟩ | ⟨key, e, hphase, hended⟩
  · nomatch (h.sole other id hlives).symm.trans hnone
  · have hcleared := h.cleared a ha
    simp only [Attempt.Cleared, hphase] at hcleared
    obtain rfl := hcleared other id hlives
    cases hlives.ended?.symm.trans hended

namespace Stage

/-- Nothing else is told while a session lives than what it has measured. -/
theorem not_mem_of_measures {tail : List Happening} {x : Happening}
    (htail : ∀ x ∈ tail, ∃ d, x = .measured key d) (hx : ∀ d, x ≠ .measured key d) : x ∉ tail := by
  intro hmem
  obtain ⟨d, hd⟩ := htail x hmem
  exact hx d hd

/-- An attempt that is past its look at the connection has only dialled. -/
theorem of_not_quiet (h : c.Stage after) (hsound : c.Sound) (hpast : ¬ c.Quiet) :
    after = [] ∧ c.guest.lastError = none := by
  cases h with
  | dialing _ herror => exact ⟨rfl, herror⟩
  | failed _ hquiet | ended _ hquiet => exact (hpast hquiet).elim
  | connected hlives => exact (hsound.idle_of_not_quiet hpast _ _ hlives).elim

/-- A session that lives is the one that the attempt has returned. -/
theorem of_lives (h : c.Stage after) (hsound : c.Sound) (hlives : c.guest.Lives key id) :
    ∃ tail, after = .returned key id :: tail ∧ c.guest.lastError = none ∧
      (∀ d, c.guest.lastRtt = some d → .measured key d ∈ tail) ∧
      ∀ x ∈ tail, ∃ d, x = .measured key d := by
  cases h with
  | dialing hidle | failed hidle | ended hidle => exact (hidle key id hlives).elim
  | connected hlives' herror hrtt htail =>
    have hsame := (hsound.sole _ _ hlives').symm.trans (hsound.sole key id hlives)
    obtain ⟨rfl, rfl⟩ := Active.mk.inj (Option.some.inj hsame)
    exact ⟨_, rfl, herror, hrtt, htail⟩

theorem dialed_not_mem (h : c.Stage after) : .dialed ∉ after := by
  cases h with
  | dialing | failed => simp
  | connected _ _ _ htail | ended _ _ _ htail =>
    have htail := not_mem_of_measures htail (x := .dialed) nofun
    simp [htail]

private theorem lastError_iff (h : c.Stage after) (why : Failure) : c.guest.lastError = some why ↔
    .failed why ∈ after ∨
      ∃ key id, .returned key id ∈ after ∧ .over key (.error why) ∈ after := by
  cases h with
  | dialing _ herror => simp [herror]
  | failed _ _ herror => simp [herror, eq_comm]
  | connected _ herror _ htail =>
    have hfailed := not_mem_of_measures htail (x := .failed why) nofun
    have hover (key : Nat) := not_mem_of_measures htail (x := .over key (.error why)) nofun
    simp [herror, hfailed, hover]
  | @ended key id tail e _ _ herror htail =>
    have hfailed := not_mem_of_measures htail (x := .failed why) nofun
    have hover (key : Nat) := not_mem_of_measures htail (x := .over key (.error why)) nofun
    rw [herror]
    constructor
    · rintro rfl
      exact .inr ⟨key, id, by simp, by simp⟩
    · rintro (hmem | ⟨key', id', -, hmem⟩)
      · simp [hfailed] at hmem
      · simp [hover] at hmem
        exact hmem.2.symm

theorem keeps (h : c.Stage after) (hkeeps : c.guest.Keeps c'.guest)
    (hrecalls : c.guest.Recalls c'.guest) (hquiet : c.Quiet → c'.Quiet) : c'.Stage after := by
  have hidle (hidle : c.guest.Idle) : c'.guest.Idle := hidle.wanes (.keeps hkeeps)
  have herror := hrecalls.lastError_eq
  cases h with
  | dialing hi he => exact .dialing (hidle hi) (herror.trans he)
  | failed hi hq he => exact .failed (hidle hi) (hquiet hq) (herror.trans he)
  | connected hlives he hrtt htail =>
    refine .connected ?_ (herror.trans he) (hrecalls.lastRtt_eq ▸ hrtt) htail
    rw [Guest.Lives, hkeeps.record_eq]
    exact hlives
  | ended hi hq he htail => exact .ended (hidle hi) (hquiet hq) (herror ▸ he) htail

/-- **What is told next is of this attempt or of its session**, until an attempt dials again. -/
theorem tells (h : c.Stage after) (hsound : c.Sound) (htidy : c.guest.Tidy) (hsingle : c.Single)
    (htells : c.Tells c' news) (hnext : news ≠ some .dialed) :
    c'.Stage (after ++ news.toList) := by
  cases htells with
  | goesOn hkeeps hrecalls hquiet =>
    rw [Option.toList_none, List.append_nil]
    exact h.keeps hkeeps hrecalls hquiet
  | dials => exact (hnext rfl).elim
  | fails hpast hquiet hguest =>
    obtain ⟨rfl, -⟩ := h.of_not_quiet hsound hpast
    have hidle := hsound.idle_of_not_quiet hpast
    exact .failed (by rw [hguest]; exact hidle) (hquiet hsingle) (by rw [hguest])
  | returns hpast hbegins hrtt herror =>
    obtain ⟨rfl, hnone⟩ := h.of_not_quiet hsound hpast
    refine .connected ?_ (herror.trans hnone) (fun d hd ↦ by nomatch hrtt.symm.trans hd) nofun
    rw [Guest.Lives, hbegins.record_eq, List.getElem?_concat_length]
  | session htells hattempts =>
    generalize hg : c'.guest = g' at htells
    cases htells with
    | @measures _ _ d hr hresult hkeeps hrtt herror =>
      -- A session that goes on is the one of the connection, and the last that was returned.
      have hactive := htidy.active_eq hsound.sole hr hresult
      have hlives := htidy.connected _ hactive
      obtain ⟨tail, rfl, hnone, -, htail⟩ := h.of_lives hsound hlives
      have hmeasured : c'.guest.lastRtt = some d := by
        rw [hg]
        exact hrtt (by rw [hactive, Option.map_some])
      rw [Option.toList_some, List.cons_append]
      refine .connected ?_ ?_ (fun d' hd' ↦ ?_) fun x hx ↦ ?_
      · rw [Guest.Lives, hg, hkeeps.record_eq]
        exact hlives
      · rw [hg, herror, hnone]
      · obtain rfl := Option.some.inj (hmeasured.symm.trans hd')
        exact List.mem_concat_self
      · rcases List.mem_append.mp hx with hold | hnew
        · exact htail x hold
        · exact ⟨d, List.mem_singleton.mp hnew⟩
    | @ends r e hr hended =>
      -- At most one session lives, so once this one has ended none does.
      have hlives := Guest.lives_of_run hr hended
      obtain ⟨tail, rfl, hnone, -, htail⟩ := h.of_lives hsound hlives
      refine .ended (fun other id hother ↦ ?_) ?_ (fun why ↦ ?_) htail
      · rw [hg] at hother
        obtain ⟨hne, hother⟩ := Guest.lives_of_ends (Guest.record_conclude ..) hother
        have hsame := (hsound.sole _ _ hlives).symm.trans (hsound.sole other id hother)
        exact hne (congrArg Active.run (Option.some.inj hsame))
      · rw [Quiet, hattempts]
        exact hsound.quiet_of_lives hlives
      · rw [hg]
        cases e <;> simp [Guest.conclude, Guest.setRun, hnone]

end Stage

/-- What has been told of a client. -/
inductive Stands (c : Calls) : List Happening → Prop where
  /-- No attempt has dialled. -/
  | untried (hidle : c.guest.Idle) (hquiet : c.Quiet) (herror : c.guest.lastError = none) :
      Stands c []
  | tried {before after : List Happening} (hstage : c.Stage after) :
      Stands c (before ++ .dialed :: after)

theorem Stands.tells (h : c.Stands log) (hsound : c.Sound) (htidy : c.guest.Tidy)
    (hsingle : c.Single) (htells : c.Tells c' news) : c'.Stands (log ++ news.toList) := by
  by_cases hdialed : news = some .dialed
  · subst hdialed
    cases htells with
    | dials ha hfree hguest =>
      have hidle := hsound.idle_of_free ha hfree
      exact .tried (.dialing (by rw [hguest]; exact hidle) (by rw [hguest]))
    | session htells => nomatch htells
  cases h with
  | tried hstage =>
    rw [List.append_assoc, List.cons_append]
    exact .tried (hstage.tells hsound htidy hsingle htells hdialed)
  | untried hidle hquiet herror =>
    cases htells with
    | goesOn hkeeps hrecalls hquiet' =>
      exact .untried (hidle.wanes (.keeps hkeeps)) (hquiet' hquiet)
        (hrecalls.lastError_eq.trans herror)
    | dials => exact (hdialed rfl).elim
    | fails hpast | returns hpast => exact (hpast hquiet).elim
    | session htells =>
      generalize c'.guest = g' at htells
      cases htells with
      | measures hr hresult =>
        exact (hidle _ _ (htidy.connected _ (htidy.active_eq hsound.sole hr hresult))).elim
      | ends hr hended => exact (hidle _ _ (Guest.lives_of_run hr hended)).elim

/-! ## Any run -/

theorem Tells.remembers (htells : c.Tells c' news) (h : c.guest.Remembers)
    (hsole : c.guest.Sole) : c'.guest.Remembers := by
  cases htells with
  | goesOn hkeeps hrecalls => exact h.same hkeeps hrecalls.lastEnd_eq
  | dials _ _ hguest | fails _ _ hguest =>
    rw [hguest]
    exact ⟨h.latest, h.noted⟩
  | returns _ hbegins _ _ hend => exact h.begins hbegins hend
  | session htells =>
    generalize c'.guest = g' at htells ⊢
    cases htells with
    | measures _ _ hkeeps _ _ hend => exact h.same hkeeps hend
    | ends hr hended => exact h.conclude hsole hr hended _

/-- The client is as its story says. -/
structure Follows (c : Calls) (log : List Happening) : Prop where
  sound : c.Sound
  tidy : c.guest.Tidy
  remembers : c.guest.Remembers
  recorded : c.Recorded log
  numbered : c.Numbered log
  stands : c.Stands log

namespace Follows

theorem act (h : c.Follows log) (hsingle : c.Single) (x : Act) :
    (c.act x).Follows (log ++ (c.news? x).toList) where
  sound := h.sound.act hsingle x
  tidy := h.tidy.changes h.sound.sole (c.changes_act x)
  remembers := (c.tells_act x).remembers h.remembers h.sound.sole
  recorded := h.recorded.tells (c.tells_act x)
  numbered := h.numbered.tells (c.tells_act x)
  stands := h.stands.tells h.sound h.tidy hsingle (c.tells_act x)

/-- **A client is as its story says**, as long as attempts do not overlap. -/
theorem perform {acts : List Act} (h : c.Follows log) (halone : c.Alone acts) :
    (c.perform acts).Follows (log ++ c.story acts) := by
  induction acts generalizing c log with
  | nil => exact (List.append_nil log).symm ▸ h
  | cons x acts ih =>
    rw [story, ← List.append_assoc]
    exact ih (h.act halone.1 x) halone.2

end Follows

private theorem idle_new (own : Hello) (prover : Prover) (inject : Injector) (tuning : Tuning) :
    (new own prover inject tuning).guest.Idle := by
  intro key id hlives
  simp [new, Guest.new, Guest.Lives, Guest.record] at hlives

private theorem follows_new (own : Hello) (prover : Prover) (inject : Injector) (tuning : Tuning) :
    (new own prover inject tuning).Follows [] where
  sound := sound_new own prover inject tuning
  tidy := Guest.tidy_new own prover inject tuning
  remembers := ⟨fun _ hactive ↦ (nomatch hactive), rfl⟩
  recorded := recorded_new own prover inject tuning
  numbered := ⟨fun _ hx ↦ (List.not_mem_nil hx).elim, .nil⟩
  stands := .untried (idle_new own prover inject tuning) (fun _ ha ↦ (List.not_mem_nil ha).elim) rfl

/-! ## What the status shows -/

theorem eq_of_append_cons {x : Happening} {before before' after after' : List Happening}
    (heq : before ++ x :: after = before' ++ x :: after') (hafter : x ∉ after)
    (hafter' : x ∉ after') : after = after' := by
  rcases List.append_eq_append_iff.mp heq with ⟨m, -, hm⟩ | ⟨m, -, hm⟩
  · cases m with
    | nil => exact (List.cons.inj hm).2
    | cons y m => exact (hafter (by simp [(List.cons.inj hm).2])).elim
  · cases m with
    | nil => exact (List.cons.inj hm).2.symm
    | cons y m => exact (hafter' (by simp [(List.cons.inj hm).2])).elim

namespace Follows

theorem lives_of_not_over (h : c.Follows log) (hreturned : .returned key id ∈ log)
    (hover : ∀ e, .over key e ∉ log) : c.guest.Lives key id := by
  have hget := h.recorded.record_eq hreturned
  cases hended : c.guest.ended? key with
  | none => rwa [hended] at hget
  | some e => exact (hover e ((h.recorded.over_iff key e).mpr hended)).elim

theorem returned_of_lives (h : c.Follows log) (hlives : c.guest.Lives key id) :
    .returned key id ∈ log := by
  rw [h.recorded.returned_iff, hlives, Option.map_some]

/-- After the session that lives has been returned, no other has, and it has not ended. -/
theorem last_of_lives {before after : List Happening} (h : c.Follows log)
    (hlives : c.guest.Lives key id) (hlog : log = before ++ .returned key id :: after) :
    (∀ key' id', .returned key' id' ∉ after) ∧ ∀ e, .over key e ∉ after := by
  have hmem {x : Happening} (hx : x ∈ after) : x ∈ log := by simp [hlog, hx]
  refine ⟨fun key' id' hx ↦ ?_, fun e hx ↦ ?_⟩
  · have hbound := h.numbered.begun _ (hmem hx) key' rfl
    have hlength := h.remembers.latest _ (h.sound.sole key id hlives)
    have horder := h.numbered.inOrder
    rw [hlog] at horder
    have hlt := (List.pairwise_cons.mp (List.pairwise_append.mp horder).2.1).1 _ hx key' id' rfl
      key rfl
    have hkey : key + 1 = c.guest.record.length := hlength
    omega
  · nomatch hlives.ended?.symm.trans ((h.recorded.over_iff key e).mp (hmem hx))

/-- **The client is connected by the session returned last, until that has ended.** -/
theorem session_iff (h : c.Follows log) (id : SessionId) : c.guest.status.session = some id ↔
    ∃ before key after, log = before ++ .returned key id :: after ∧
      (∀ key' id', .returned key' id' ∉ after) ∧ ∀ e, .over key e ∉ after := by
  constructor
  · intro hstatus
    obtain ⟨active, hactive, rfl⟩ := Option.map_eq_some_iff.mp hstatus
    have hlives := h.tidy.connected active hactive
    obtain ⟨before, after, hlog⟩ := List.append_of_mem (h.returned_of_lives hlives)
    exact ⟨before, active.run, after, hlog, h.last_of_lives hlives hlog⟩
  · rintro ⟨before, key, after, hlog, -, hover⟩
    have hlives : c.guest.Lives key id := by
      refine h.lives_of_not_over (by simp [hlog]) fun e he ↦ hover e ?_
      exact h.numbered.mem_after hlog he rfl (Nat.le_refl _) nofun
    rw [Guest.status, h.sound.sole key id hlives, Option.map_some]

/-- **The last error is that of the latest attempt, or of its session.** -/
theorem error_iff (h : c.Follows log) (why : Failure) : c.guest.status.error = some why ↔
    ∃ before after, log = before ++ .dialed :: after ∧ .dialed ∉ after ∧
      (.failed why ∈ after ∨
        ∃ key id, .returned key id ∈ after ∧ .over key (.error why) ∈ after) := by
  have hstands := h.stands
  cases hstands with
  | untried _ _ herror => simp [Guest.status, herror]
  | @tried before after hstage =>
    rw [Guest.status, hstage.lastError_iff]
    constructor
    · exact fun htold ↦ ⟨before, after, rfl, hstage.dialed_not_mem, htold⟩
    · rintro ⟨before', after', hsplit, hnone, htold⟩
      rwa [eq_of_append_cons hsplit hstage.dialed_not_mem hnone]

/-- **The round trip was measured by the session of the connection.** -/
theorem measured_of_rtt {d : Duration} (h : c.Follows log)
    (hconnected : c.guest.status.connected = true) (hrtt : c.guest.status.rtt = some d) :
    ∃ before key id after, log = before ++ .returned key id :: after ∧
      (∀ key' id', .returned key' id' ∉ after) ∧ .measured key d ∈ after := by
  obtain ⟨id, hstatus⟩ := Option.isSome_iff_exists.mp hconnected
  obtain ⟨active, hactive, -⟩ := Option.map_eq_some_iff.mp hstatus
  have hlives := h.tidy.connected active hactive
  have hstands := h.stands
  cases hstands with
  | untried hidle => exact (hidle _ _ hlives).elim
  | @tried before after hstage =>
    obtain ⟨tail, rfl, -, hmeasured, htail⟩ := hstage.of_lives h.sound hlives
    exact ⟨before ++ [.dialed], active.run, active.session, tail, by simp,
      fun key' id' ↦ Stage.not_mem_of_measures htail nofun, hmeasured d hrtt⟩

private theorem wait_of_lives (h : c.Follows log) (hlives : c.guest.Lives key id) :
    c.guest.wait id = .until_ key := by
  simp only [Guest.wait, h.sound.sole key id hlives, if_true]

/-- If no session that was returned later is over, none with a later key has ended. -/
theorem ended?_eq_none {before after : List Happening} {later : Nat} (h : c.Follows log)
    (hlog : log = before ++ .returned key id :: after)
    (hlater : ∀ key' id' e', .returned key' id' ∈ after → .over key' e' ∉ after)
    (hlt : key < later) : c.guest.ended? later = none := by
  by_contra hended
  obtain ⟨e, hended⟩ := Option.ne_none_iff_exists'.mp hended
  obtain ⟨r, hr, -⟩ := Option.bind_eq_some_iff.mp hended
  have hname : (c.guest.record[later]?).map Prod.fst = some r.worker.session := by
    rw [Guest.getElem?_record, hr]
    rfl
  have hreturned := (h.recorded.returned_iff later _).mpr hname
  have hover := (h.recorded.over_iff later e).mpr hended
  have hle := Nat.le_of_lt hlt
  refine hlater later r.worker.session e (h.numbered.mem_after hlog hreturned rfl hle ?_)
    (h.numbered.mem_after hlog hover rfl hle nofun)
  rintro ⟨⟩
  exact Nat.lt_irrefl _ hlt

/-- Who waits for a session that has ended is told how, until a later one has ended. -/
theorem wait_of_over {before after : List Happening} {e : Ending} (h : c.Follows log)
    (hlog : log = before ++ .returned key id :: after) (hover : c.guest.ended? key = some e)
    (hname : ∀ key', .returned key' id ∉ after)
    (hlater : ∀ key' id' e', .returned key' id' ∈ after → .over key' e' ∉ after) :
    c.guest.wait id = .ended e := by
  have hreturned : .returned key id ∈ log := by simp [hlog]
  have hget : c.guest.record[key]? = some (id, some e) := by
    rw [h.recorded.record_eq hreturned, hover]
  have hend := h.remembers.lastEnd_eq hget fun later ↦ h.ended?_eq_none hlog hlater
  refine Guest.wait_of_lastEnd hend ?_
  -- The session of the connection lives, so it is a later one, and has another name.
  rintro ⟨name, run⟩ hactive rfl
  have hlives : c.guest.Lives run name := h.tidy.connected _ hactive
  have hlength : run + 1 = c.guest.record.length := h.remembers.latest _ hactive
  have hlt : key < c.guest.record.length := (List.getElem?_eq_some_iff.mp hget).1
  have hne : run ≠ key := by
    rintro rfl
    nomatch hlives.ended?.symm.trans hover
  refine hname run (h.numbered.mem_after hlog (h.returned_of_lives hlives) rfl (by omega) ?_)
  rintro ⟨⟩
  exact hne rfl

end Follows

/-- **The status follows the session.** As long as attempts do not overlap, a client is connected by
the session that was returned last, exactly until that has ended. Its last error is the one by which
the latest attempt that has dialled has failed, or its session has ended, if that has happened.
While it is connected, a round trip was measured by that very session. Who begins to wait for a
session, before or after it has ended but before a later one has, is told exactly how it ended; if
several sessions were returned with one name, the last of them is meant. -/
theorem status_follows (own : Hello) (prover : Prover) (inject : Injector) (tuning : Tuning)
    (acts : List Act) (halone : (new own prover inject tuning).Alone acts) :
    let c := new own prover inject tuning
    let g := (c.perform acts).guest
    let log := c.story acts
    (∀ id, g.status.session = some id ↔
      ∃ before key after, log = before ++ .returned key id :: after ∧
        (∀ key' id', .returned key' id' ∉ after) ∧ ∀ e, .over key e ∉ after) ∧
    (∀ why, g.status.error = some why ↔
      ∃ before after, log = before ++ .dialed :: after ∧ .dialed ∉ after ∧
        (.failed why ∈ after ∨
          ∃ key id, .returned key id ∈ after ∧ .over key (.error why) ∈ after)) ∧
    (∀ d, g.status.connected = true → g.status.rtt = some d →
      ∃ before key id after, log = before ++ .returned key id :: after ∧
        (∀ key' id', .returned key' id' ∉ after) ∧ .measured key d ∈ after) ∧
    ∀ before key id after, log = before ++ .returned key id :: after →
      (∀ key', .returned key' id ∉ after) →
      (∀ key' id' e, .returned key' id' ∈ after → .over key' e ∉ after) →
      ∀ later e, (g.wait id).result? ((c.perform acts).perform later).guest = some e ↔
        .over key e ∈ c.story (acts ++ later) := by
  intro c g log
  have hfollows : (c.perform acts).Follows log :=
    (follows_new own prover inject tuning).perform halone
  refine ⟨hfollows.session_iff, hfollows.error_iff, fun d ↦ hfollows.measured_of_rtt, ?_⟩
  intro before key id after hlog hname hlater later e
  have hrecorded : ((c.perform acts).perform later).Recorded (c.story (acts ++ later)) := by
    rw [story_append]
    exact hfollows.recorded.perform later
  -- Whoever waits does so for the end of a session that lives, or is told the end that is kept.
  cases hended : g.ended? key with
  | none =>
    have hlives : g.Lives key id := by
      refine hfollows.lives_of_not_over (by simp [hlog]) fun e he ↦ ?_
      nomatch hended.symm.trans ((hfollows.recorded.over_iff key e).mp he)
    rw [hfollows.wait_of_lives hlives, hrecorded.over_iff]
    rfl
  | some e₀ =>
    have hover : .over key e₀ ∈ c.story (acts ++ later) := by
      rw [story_append]
      exact List.mem_append_left _ ((hfollows.recorded.over_iff key e₀).mpr hended)
    rw [hfollows.wait_of_over hlog hended hname hlater, hrecorded.over_iff,
      (hrecorded.over_iff key e₀).mp hover]
    rfl

/-- A client is connected, and connected again. It is connected by the second session then, without
an error, and who asks only now how the first one ended is told so. -/
theorem follows_the_second :
    let first : SessionId := ⟨⟨List.replicate 16 1, rfl⟩⟩
    let second : SessionId := ⟨⟨List.replicate 16 2, rfl⟩⟩
    let closed : Ending := .ok ⟨.own, .userInitiated⟩
    let acts := .connect "desk" :: (Act.goesOn 0 [] 7 ++ Act.welcome 0 first)
      ++ .connect "desk" :: (Act.goesOn 1 [] 1
        ++ List.replicate 7 (.session 0 0 ⟨.new 1024, .new 1024⟩)
        ++ Act.goesOn 1 [] 7 ++ Act.welcome 1 second)
    let g := (trusting.perform acts).guest
    let since : List Happening := [.over 0 closed, .dialed, .returned 1 second]
    trusting.Alone acts ∧ trusting.story acts = [.dialed] ++ .returned 0 first :: since ∧
      g.status.session = some second ∧ g.status.error = none ∧
      (g.wait first).result? g = some closed := by
  intro first second closed acts g since
  have halone : trusting.Alone acts := by decide +kernel
  have hstory : trusting.story acts = [.dialed] ++ .returned 0 first :: since := by
    decide +kernel
  have hname : ∀ key, .returned key first ∉ since := by
    intro key hmem
    have hsame : key = 1 ∧ first = second := by simpa [since] using hmem
    exact absurd hsame.2 (by decide)
  have hlater : ∀ key id e, .returned key id ∈ since → .over key e ∉ since := by
    intro key id e hreturned hover
    have hone : key = 1 ∧ id = second := by simpa [since] using hreturned
    have hzero : key = 0 ∧ e = closed := by simpa [since] using hover
    omega
  have hsession : g.status.session = some second ↔
      ∃ before key after, trusting.story acts = before ++ .returned key second :: after ∧
        (∀ key' id', .returned key' id' ∉ after) ∧ ∀ e, .over key e ∉ after :=
    (status_follows _ _ _ _ acts halone).1 second
  have herror (why : Failure) : g.status.error = some why ↔
      ∃ before after, trusting.story acts = before ++ .dialed :: after ∧ .dialed ∉ after ∧
        (.failed why ∈ after ∨
          ∃ key id, .returned key id ∈ after ∧ .over key (.error why) ∈ after) :=
    (status_follows _ _ _ _ acts halone).2.1 why
  have hwait : (g.wait first).result? g = some closed ↔ .over 0 closed ∈ trusting.story acts := by
    have htold := (status_follows _ _ _ _ acts halone).2.2.2 [.dialed] 0 first since hstory hname
      hlater [] closed
    rw [List.append_nil, perform_nil] at htold
    exact htold
  refine ⟨halone, hstory, hsession.mpr ?_, ?_, hwait.mpr (by simp [hstory, since])⟩
  · exact ⟨[.dialed, .returned 0 first, .over 0 closed, .dialed], 1, [], hstory, nofun, nofun⟩
  · refine Option.eq_none_iff_forall_ne_some.mpr fun why hwhy ↦ ?_
    obtain ⟨before, after, hsplit, hlast, htold⟩ := (herror why).mp hwhy
    have hlatest : trusting.story acts =
        [.dialed, .returned 0 first, .over 0 closed] ++ .dialed :: [.returned 1 second] := hstory
    have hafter := eq_of_append_cons (hsplit.symm.trans hlatest) hlast (by simp)
    simp [hafter] at htold

end Calls

end DeskLink.Client
