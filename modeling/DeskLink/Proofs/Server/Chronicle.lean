import Mathlib.Data.List.Basic
import Mathlib.Data.List.Induction
import DeskLink.Proofs.Server.Places

/-!
# What a registry remembers

An entry of the registry is what is left of a history: a session was registered for somebody at some
instant, reports about it have come in since, and nobody has removed it. `Ledger.Stays` reads that
history off the acts. There is exactly one entry for each such history, and its record is the one
that the session began with, with the reports folded in as they came: `Ledger.mem_entries_iff`.

A report that finds no session under its name leaves no trace, and neither does one about a session
that has been removed, even if its name is given to another one later. So what the registry answers
depends on the reports that `Ledger.Reported` admits and on nothing else.
-/

namespace DeskLink

/-! ## Reports that are folded into a record -/

namespace Record

private theorem session_foldl (r : Record) (reports : List Snapshot) :
    (reports.foldl apply r).session = r.session := by
  induction reports generalizing r with
  | nil => rfl
  | cons s reports ih => exact ih (r.apply s)

private theorem establishedAt_foldl (r : Record) (reports : List Snapshot) :
    (reports.foldl apply r).establishedAt = r.establishedAt := by
  induction reports generalizing r with
  | nil => rfl
  | cons s reports ih => exact ih (r.apply s)

theorem lastHeartbeatAt_concat (r : Record) (reports : List Snapshot) (s : Snapshot) :
    ((reports ++ [s]).foldl apply r).lastHeartbeatAt = s.time := by
  rw [List.foldl_append]
  rfl

theorem lastRtt_foldl (r : Record) (reports : List Snapshot) :
    (reports.foldl apply r).lastRtt =
      ((reports.filterMap Snapshot.rtt).getLast? <|> r.lastRtt) := by
  induction reports using List.reverseRecOn with
  | nil => rfl
  | append_singleton reports s ih =>
    rw [List.foldl_append, List.filterMap_append]
    change (s.rtt <|> (reports.foldl apply r).lastRtt) = _
    rw [ih]
    cases hrtt : s.rtt with
    | none => simp [hrtt]
    | some d => simp [hrtt]

end Record

namespace Server

/-! ## The latest of several records -/

namespace Registry

variable {key : Record → Nat} {records : List Record} {r : Record}

theorem latestBy_concat (key : Record → Nat) (records : List Record) (r : Record) :
    latestBy key (records ++ [r]) =
      match latestBy key records with
      | none => some r
      | some b => if key b ≤ key r then some r else some b := by
  rw [latestBy, List.foldl_append]
  rfl

theorem latestBy_eq_none_iff : latestBy key records = none ↔ records = [] := by
  constructor
  · intro h
    rcases List.eq_nil_or_concat' records with hnil | ⟨before, r, rfl⟩
    · exact hnil
    · rw [latestBy_concat] at h
      split at h
      · nomatch h
      · split at h <;> nomatch h
  · rintro rfl
    rfl

/-- The record that is picked is one of them, and none has a greater key. -/
theorem of_latestBy (h : latestBy key records = some r) :
    r ∈ records ∧ ∀ other ∈ records, key other ≤ key r := by
  induction records using List.reverseRecOn generalizing r with
  | nil => nomatch h
  | append_singleton before last ih =>
    rw [latestBy_concat] at h
    split at h
    · rename_i hnone
      rw [latestBy_eq_none_iff.mp hnone, List.nil_append] at *
      obtain rfl := Option.some.inj h
      exact ⟨List.mem_singleton_self _, fun other hother ↦
        Nat.le_of_eq (congrArg key (List.mem_singleton.mp hother))⟩
    rename_i b hb
    obtain ⟨hmem, hbound⟩ := ih hb
    split at h
    · rename_i hle
      obtain rfl := Option.some.inj h
      refine ⟨List.mem_concat_self, fun other hother ↦ ?_⟩
      rcases List.mem_append.mp hother with hold | hnew
      · exact Nat.le_trans (hbound other hold) hle
      · exact Nat.le_of_eq (congrArg key (List.mem_singleton.mp hnew))
    · rename_i hlt
      obtain rfl := Option.some.inj h
      refine ⟨List.mem_append_left _ hmem, fun other hother ↦ ?_⟩
      rcases List.mem_append.mp hother with hold | hnew
      · exact hbound other hold
      · rw [List.mem_singleton.mp hnew]
        exact Nat.le_of_not_le hlt

end Registry

/-! ## What an act does to the sessions -/

namespace Ledger

/-- Whom an act would register, and when. -/
def Act.newcomer? : Act → Option (Newcomer × Instant)
  | .create _ n now | .commit _ _ n now => some (n, now)
  | _ => none

def Act.report? : Act → Option Snapshot
  | .update s => some s
  | _ => none

/-- What an act can be for the sessions that are registered. -/
inductive Turns (l : Ledger) : Act → Answer → List Entry → Prop where
  | registers {a : Act} {id : SessionId} {n : Newcomer} {now : Instant}
      (hnewcomer : a.newcomer? = some (n, now)) (hunused : l.registry.find? id = none) :
      Turns l a (.registered id)
        (l.registry.entries ++ [⟨.start id n.peer n.version now, n.control⟩])
  | removes (id : SessionId) :
      Turns l (.remove id) (.record (l.registry.lookup id))
        (l.registry.entries.filter (·.record.session != id))
  | updates (s : Snapshot) : Turns l (.update s) .nothing (l.registry.update s).entries
  | rests {a : Act} {answer : Answer} (hanswer : ∀ id, answer ≠ .registered id)
      (hremove : ∀ id, a ≠ .remove id) (hreport : a.report? = none) :
      Turns l a answer l.registry.entries

/-- **An act is one of these.** -/
theorem turns_act (l : Ledger) (a : Act) :
    l.Turns a (l.act a).1 (l.act a).2.registry.entries := by
  cases a with
  | remove id => exact .removes id
  | update s => exact .updates s
  | read q =>
    refine .rests (fun id ↦ ?_) (by simp) rfl
    cases q <;> simp [act, look]
  | reserve =>
    simp only [act]
    split
    · rename_i hreserve
      obtain ⟨-, rfl⟩ := Registry.reserve_eq_ok hreserve
      exact .rests (by simp) (by simp) rfl
    · exact .rests (by simp) (by simp) rfl
  | drop ticket =>
    simp only [act]
    split
    · exact .rests (by simp) (by simp) rfl
    · exact .rests (by simp) (by simp) rfl
  | create ids n now =>
    simp only [act]
    split
    · rename_i hcreate
      obtain ⟨-, hunused, rfl⟩ := Registry.create?_eq_ok hcreate
      exact .registers rfl hunused
    · exact .rests (by simp) (by simp) rfl
  | commit ticket ids n now =>
    simp only [act]
    split
    · split
      · rename_i hcommit
        obtain ⟨hunused, rfl⟩ := Registry.commit?_eq_some hcommit
        exact .registers rfl hunused
      · exact .rests (by simp) (by simp) rfl
    · exact .rests (by simp) (by simp) rfl

/-! ## Histories -/

/-- After these acts, the session with this name is registered: it was registered for this newcomer
at this instant, and what has been asked since was not to remove it. -/
def Stays (l : Ledger) (acts : List Act) (id : SessionId) (n : Newcomer) (now : Instant)
    (since : List Act) : Prop :=
  (∃ before a, acts = before ++ a :: since ∧ a.newcomer? = some (n, now) ∧
    ((l.perform before).act a).1 = .registered id) ∧ .remove id ∉ since

/-- The reports about a session among these acts. -/
def reports (id : SessionId) (acts : List Act) : List Snapshot :=
  (acts.filterMap Act.report?).filter (·.session = id)

/-- A report that has come while its session was registered, as it still is. -/
def Reported (l : Ledger) (acts : List Act) (s : Snapshot) : Prop :=
  ∃ n now since, l.Stays acts s.session n now since ∧ .update s ∈ since

/-- The entry that such a history leaves. -/
def entryOf (id : SessionId) (n : Newcomer) (now : Instant) (since : List Act) : Entry :=
  ⟨(reports id since).foldl Record.apply (.start id n.peer n.version now), n.control⟩

/-- A history that ends with an act is split at that act, or earlier. -/
theorem split_cases {α : Type} {acts before after : List α} {a x : α}
    (h : acts ++ [a] = before ++ x :: after) : (before = acts ∧ x = a ∧ after = []) ∨
      ∃ earlier, after = earlier ++ [a] ∧ acts = before ++ x :: earlier := by
  rcases List.eq_nil_or_concat' after with rfl | ⟨earlier, y, rfl⟩
  · obtain ⟨rfl, hlast⟩ := List.append_inj' h rfl
    exact .inl ⟨rfl, (List.singleton_inj.mp hlast).symm, rfl⟩
  · rw [← List.cons_append, ← List.append_assoc] at h
    obtain ⟨rfl, hlast⟩ := List.append_inj' h rfl
    obtain rfl := List.singleton_inj.mp hlast
    exact .inr ⟨earlier, rfl, rfl⟩

variable {l : Ledger} {acts since since' : List Act} {a : Act} {id : SessionId}
  {n n' : Newcomer} {now now' : Instant} {e : Entry} {s : Snapshot}

theorem perform_concat (l : Ledger) (acts : List Act) (a : Act) :
    l.perform (acts ++ [a]) = ((l.perform acts).act a).2 := by
  rw [perform, perform, List.foldl_append, List.foldl_cons, List.foldl_nil]

private theorem mem_reports : s ∈ reports id acts ↔ .update s ∈ acts ∧ s.session = id := by
  rw [reports, List.mem_filter, List.mem_filterMap, decide_eq_true_eq]
  constructor
  · rintro ⟨⟨x, hx, hreport⟩, hsession⟩
    cases x with
    | update s' => exact ⟨Option.some.inj hreport ▸ hx, hsession⟩
    | _ => nomatch hreport
  · rintro ⟨hmem, hsession⟩
    exact ⟨⟨_, hmem, rfl⟩, hsession⟩

theorem reports_concat (id : SessionId) (acts : List Act) (a : Act) :
    reports id (acts ++ [a]) = reports id acts ++ (a.report?.toList.filter (·.session = id)) := by
  rw [reports, List.filterMap_append, List.filter_append, ← reports]
  cases a <;> rfl

theorem session_entryOf (id : SessionId) (n : Newcomer) (now : Instant) (since : List Act) :
    (entryOf id n now since).record.session = id := Record.session_foldl _ _

theorem establishedAt_entryOf (id : SessionId) (n : Newcomer) (now : Instant) (since : List Act) :
    (entryOf id n now since).record.establishedAt = now := Record.establishedAt_foldl _ _

theorem not_stays_nil : ¬ l.Stays [] id n now since := by
  rintro ⟨⟨before, a, hacts, -⟩, -⟩
  exact (List.append_ne_nil_of_right_ne_nil before (List.cons_ne_nil a since)) hacts.symm

/-- Whoever is registered has just been, or was registered and stays. -/
theorem stays_concat : l.Stays (acts ++ [a]) id n now since ↔
    (since = [] ∧ a.newcomer? = some (n, now) ∧ ((l.perform acts).act a).1 = .registered id) ∨
      ∃ earlier, since = earlier ++ [a] ∧ l.Stays acts id n now earlier ∧ a ≠ .remove id := by
  constructor
  · rintro ⟨⟨before, x, hacts, hnewcomer, hregistered⟩, hremove⟩
    rcases split_cases hacts with ⟨rfl, rfl, rfl⟩ | ⟨earlier, rfl, rfl⟩
    · exact .inl ⟨rfl, hnewcomer, hregistered⟩
    · rw [List.mem_append, not_or, List.mem_singleton] at hremove
      exact .inr ⟨earlier, rfl, ⟨⟨before, x, rfl, hnewcomer, hregistered⟩, hremove.1⟩,
        Ne.symm hremove.2⟩
  · rintro (⟨rfl, hnewcomer, hregistered⟩ |
      ⟨earlier, rfl, ⟨⟨before, x, rfl, hnewcomer, hregistered⟩, hremove⟩, hne⟩)
    · exact ⟨⟨acts, a, rfl, hnewcomer, hregistered⟩, List.not_mem_nil⟩
    · refine ⟨⟨before, x, by simp, hnewcomer, hregistered⟩, ?_⟩
      rw [List.mem_append, not_or, List.mem_singleton]
      exact ⟨hremove, Ne.symm hne⟩

/-! ## Entries -/

/-- What an act makes of an entry that stays. -/
def told (a : Act) (e : Entry) : Entry :=
  match a.report? with
  | none => e
  | some s =>
    if e.record.session = s.session then { e with record := e.record.apply s } else e

theorem told_eq_self (hreport : a.report? = none) (e : Entry) : told a e = e := by
  rw [told, hreport]

theorem entryOf_concat (id : SessionId) (n : Newcomer) (now : Instant) (since : List Act)
    (a : Act) : entryOf id n now (since ++ [a]) = told a (entryOf id n now since) := by
  cases hreport : a.report? with
  | none =>
    rw [told_eq_self hreport, entryOf, reports_concat, hreport, Option.toList_none,
      List.filter_nil, List.append_nil, ← entryOf]
  | some s =>
    simp only [told, hreport, session_entryOf]
    by_cases hsame : id = s.session
    · have hreports : reports id (since ++ [a]) = reports id since ++ [s] := by
        simp [reports_concat, hreport, hsame]
      rw [if_pos hsame, entryOf, hreports, List.foldl_append]
      rfl
    · have hreports : reports id (since ++ [a]) = reports id since := by
        simp [reports_concat, hreport, Ne.symm hsame]
      rw [if_neg hsame, entryOf, hreports, ← entryOf]

/-- After an act, an entry is that of whom the act has registered, or one that stays. -/
theorem Turns.mem_iff {answer : Answer} {entries : List Entry} (h : l.Turns a answer entries)
    (e : Entry) : e ∈ entries ↔
      (∃ id n now, answer = .registered id ∧ a.newcomer? = some (n, now) ∧
        e = entryOf id n now []) ∨
      ∃ e' ∈ l.registry.entries, a ≠ .remove e'.record.session ∧ e = told a e' := by
  cases h with
  | @registers _ id n now hnewcomer hunused =>
    have hreport : a.report? = none := by cases a <;> first | rfl | cases hnewcomer
    have hremove : ∀ id, a ≠ .remove id := by rintro id rfl; cases hnewcomer
    constructor
    · intro he
      rcases List.mem_append.mp he with hold | hnew
      · exact .inr ⟨e, hold, hremove _, (told_eq_self hreport e).symm⟩
      · exact .inl ⟨id, n, now, rfl, hnewcomer, List.mem_singleton.mp hnew⟩
    · rintro (⟨id', n', now', hid, hnewcomer', rfl⟩ | ⟨e', he', -, rfl⟩)
      · obtain rfl := Answer.registered.inj hid
        obtain ⟨rfl, rfl⟩ := Prod.mk.inj (Option.some.inj (hnewcomer.symm.trans hnewcomer'))
        exact List.mem_concat_self
      · rw [told_eq_self hreport]
        exact List.mem_append_left _ he'
  | removes id =>
    rw [List.mem_filter, bne_iff_ne]
    constructor
    · rintro ⟨he, hother⟩
      exact .inr ⟨e, he, fun h ↦ hother (Act.remove.inj h).symm, rfl⟩
    · rintro (⟨id', n, now, hid, -⟩ | ⟨e', he', hother, rfl⟩)
      · cases hid
      · exact ⟨he', fun h ↦ hother (congrArg _ h.symm)⟩
  | updates s =>
    rw [Registry.update, List.mem_map]
    constructor
    · rintro ⟨e', he', rfl⟩
      exact .inr ⟨e', he', by simp, rfl⟩
    · rintro (⟨id', n, now, hid, -⟩ | ⟨e', he', -, rfl⟩)
      · cases hid
      · exact ⟨e', he', rfl⟩
  | rests hanswer hremove hreport =>
    constructor
    · intro he
      exact .inr ⟨e, he, hremove _, (told_eq_self hreport e).symm⟩
    · rintro (⟨id', n, now, hid, -⟩ | ⟨e', he', -, rfl⟩)
      · exact (hanswer id' hid).elim
      · rw [told_eq_self hreport]
        exact he'

/-- **The registry holds one entry for each session that stays**, and no other. -/
theorem mem_entries_iff (maxClients : Nat) (acts : List Act) (e : Entry) :
    e ∈ ((new maxClients).perform acts).registry.entries ↔
      ∃ id n now since, (new maxClients).Stays acts id n now since ∧
        e = entryOf id n now since := by
  -- From the end of the history: who stays has just been registered, or was there before.
  induction acts using List.reverseRecOn generalizing e with
  | nil =>
    constructor
    · intro he
      cases he
    · rintro ⟨id, n, now, since, hstays, -⟩
      exact (not_stays_nil hstays).elim
  | append_singleton acts a ih =>
    rw [perform_concat, (((new maxClients).perform acts).turns_act a).mem_iff]
    simp only [stays_concat]
    constructor
    · rintro (⟨id, n, now, hanswer, hnewcomer, rfl⟩ | ⟨e', he', hremove, rfl⟩)
      · exact ⟨id, n, now, [], .inl ⟨rfl, hnewcomer, hanswer⟩, rfl⟩
      · obtain ⟨id, n, now, earlier, hstays, rfl⟩ := (ih e').mp he'
        rw [session_entryOf] at hremove
        exact ⟨id, n, now, earlier ++ [a], .inr ⟨earlier, rfl, hstays, hremove⟩,
          (entryOf_concat ..).symm⟩
    · rintro ⟨id, n, now, since, ⟨rfl, hnewcomer, hanswer⟩ | ⟨earlier, rfl, hstays, hremove⟩, rfl⟩
      · exact .inl ⟨id, n, now, hanswer, hnewcomer, rfl⟩
      · refine .inr ⟨entryOf id n now earlier, (ih _).mpr ⟨id, n, now, earlier, hstays, rfl⟩, ?_,
          entryOf_concat ..⟩
        rwa [session_entryOf]

variable {maxClients : Nat}

theorem Stays.mem_entries (h : (new maxClients).Stays acts id n now since) :
    entryOf id n now since ∈ ((new maxClients).perform acts).registry.entries :=
  (mem_entries_iff maxClients acts _).mpr ⟨id, n, now, since, h, rfl⟩

theorem Stays.find?_ne_none (h : (new maxClients).Stays acts id n now since) :
    ((new maxClients).perform acts).registry.find? id ≠ none := by
  rw [Ne, Registry.find?_eq_none, not_not]
  exact List.mem_map.mpr ⟨_, h.mem_entries, session_entryOf id n now since⟩

theorem Stays.unique (h : (new maxClients).Stays acts id n now since)
    (h' : (new maxClients).Stays acts id n' now' since') :
    n = n' ∧ now = now' ∧ since = since' := by
  induction acts using List.reverseRecOn generalizing since since' with
  | nil => exact (not_stays_nil h).elim
  | append_singleton acts a ih =>
    -- A session that stays has its name in use, so that it is not registered a second time.
    have hused {n now earlier} (hstays : (new maxClients).Stays acts id n now earlier) :
        (((new maxClients).perform acts).act a).1 ≠ .registered id := fun hregistered ↦
      hstays.find?_ne_none (registered_unused hregistered).1
    rcases stays_concat.mp h with ⟨rfl, hnewcomer, hregistered⟩ | ⟨earlier, rfl, hstays, -⟩
    · rcases stays_concat.mp h' with ⟨rfl, hnewcomer', -⟩ | ⟨earlier', rfl, hstays', -⟩
      · obtain ⟨rfl, rfl⟩ := Prod.mk.inj (Option.some.inj (hnewcomer.symm.trans hnewcomer'))
        exact ⟨rfl, rfl, rfl⟩
      · exact (hused hstays' hregistered).elim
    · rcases stays_concat.mp h' with ⟨rfl, -, hregistered⟩ | ⟨earlier', rfl, hstays', -⟩
      · exact (hused hstays hregistered).elim
      · obtain ⟨rfl, rfl, rfl⟩ := ih hstays hstays'
        exact ⟨rfl, rfl, rfl⟩

/-- The reports that count for a session are those that have come since it was registered. -/
theorem Stays.reported_iff (h : (new maxClients).Stays acts id n now since) :
    (new maxClients).Reported acts s ∧ s.session = id ↔ s ∈ reports id since := by
  rw [mem_reports]
  constructor
  · rintro ⟨⟨n', now', since', hstays, hmem⟩, rfl⟩
    obtain ⟨-, -, rfl⟩ := h.unique hstays
    exact ⟨hmem, rfl⟩
  · rintro ⟨hmem, rfl⟩
    exact ⟨⟨n, now, since, h, hmem⟩, rfl⟩

end Ledger

end Server

end DeskLink
