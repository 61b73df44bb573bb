import Mathlib.Data.List.Nodup
import DeskLink.Proofs.Server.Chronicle

/-!
# Which round trip is the latest

The registry is asked for one round trip, that of the session which was heard of last among those
with a measurement. A session is heard of by every report, whether it carries a measurement or not:
an acknowledgement that comes late or twice proves that the other side is there and measures
nothing. So the answer is the last measurement of one session, but it need not be the most recent
one. It is, as long as no other session that was measured before has been heard of since:
`Ledger.latest_round_trip`. Otherwise an older round trip is brought up again by a report that says
nothing about it: `Ledger.brought_up_again`.
-/

namespace DeskLink.Server

namespace Ledger

variable {maxClients : Nat} {l : Ledger} {acts since : List Act} {id : SessionId} {n : Newcomer}
  {now : Instant} {s m : Snapshot} {d : Duration}

/-! ## Reports and measurements -/

/-- All reports that are brought, in order. -/
def snapshots (acts : List Act) : List Snapshot := acts.filterMap Act.report?

/-- A report with a measurement counts for this session. -/
def Measured (l : Ledger) (acts : List Act) (id : SessionId) : Prop :=
  ∃ m, l.Reported acts m ∧ m.session = id ∧ m.rtt ≠ none

/-- Of the reports that count for sessions with a measurement, this is the latest. -/
structure LastHeard (l : Ledger) (acts : List Act) (s : Snapshot) : Prop where
  reported : l.Reported acts s
  measured : l.Measured acts s.session
  latest : ∀ other, l.Reported acts other → l.Measured acts other.session → other.time ≤ s.time

/-- Of the measurements that count for its session, this is the latest. -/
structure LastMeasured (l : Ledger) (acts : List Act) (m : Snapshot) : Prop where
  reported : l.Reported acts m
  measured : m.rtt ≠ none
  latest : ∀ other, l.Reported acts other → other.session = m.session → other.rtt ≠ none →
    other.time ≤ m.time

/-- Of all measurements that count, this is the most recent. -/
structure MostRecent (l : Ledger) (acts : List Act) (m : Snapshot) : Prop where
  reported : l.Reported acts m
  measured : m.rtt ≠ none
  latest : ∀ other, l.Reported acts other → other.rtt ≠ none → other.time ≤ m.time

theorem Reported.mem_snapshots (h : l.Reported acts s) : s ∈ snapshots acts := by
  obtain ⟨n, now, since, ⟨⟨before, a, rfl, -⟩, -⟩, hmem⟩ := h
  exact List.mem_filterMap.mpr ⟨.update s, by simp [hmem], rfl⟩

theorem Reported.eq_of_time {s' : Snapshot}
    (htimes : ((snapshots acts).map Snapshot.time).Nodup) (h : l.Reported acts s)
    (h' : l.Reported acts s') (htime : s.time = s'.time) : s = s' :=
  List.inj_on_of_nodup_map htimes h.mem_snapshots h'.mem_snapshots htime

/-- A session that was heard of last and measured last leaves no doubt about the round trip. -/
theorem LastHeard.rtt_unique {heard heard' m' : Snapshot}
    (htimes : ((snapshots acts).map Snapshot.time).Nodup) (hheard : l.LastHeard acts heard)
    (hheard' : l.LastHeard acts heard') (hm : l.LastMeasured acts m)
    (hm' : l.LastMeasured acts m') (hsession : m.session = heard.session)
    (hsession' : m'.session = heard'.session) : m.rtt = m'.rtt := by
  have htime : heard.time = heard'.time := Nat.le_antisymm
    (hheard'.latest heard hheard.reported hheard.measured)
    (hheard.latest heard' hheard'.reported hheard'.measured)
  obtain rfl := hheard.reported.eq_of_time htimes hheard'.reported htime
  have hsame : m.session = m'.session := hsession.trans hsession'.symm
  have htime : m.time = m'.time := Nat.le_antisymm
    (hm'.latest m hm.reported hsame hm.measured) (hm.latest m' hm'.reported hsame.symm hm'.measured)
  rw [hm.reported.eq_of_time htimes hm'.reported htime]

/-! ## What an entry says about them -/

theorem lastRtt_entryOf (id : SessionId) (n : Newcomer) (now : Instant) (since : List Act) :
    (entryOf id n now since).record.lastRtt =
      ((reports id since).filterMap Snapshot.rtt).getLast? := by
  rw [entryOf, Record.lastRtt_foldl, Record.start]
  cases ((reports id since).filterMap Snapshot.rtt).getLast? <;> rfl

theorem Stays.reports_pairwise (htimes : ((snapshots acts).map Snapshot.time).Nodup)
    (horder : (snapshots acts).Pairwise fun a b ↦ a.session = b.session → a.time ≤ b.time)
    (h : l.Stays acts id n now since) :
    (reports id since).Pairwise fun a b ↦ a.time < b.time := by
  obtain ⟨⟨before, a, rfl, -⟩, -⟩ := h
  have hsublist : (snapshots since).Sublist (snapshots (before ++ a :: since)) := by
    refine List.Sublist.filterMap _ ?_
    exact (List.sublist_cons_self a since).trans (List.sublist_append_right before _)
  have hdistinct := List.pairwise_map.mp htimes
  refine List.pairwise_filter.mpr (((hdistinct.and horder).sublist hsublist).imp ?_)
  intro a b hab ha hb
  rw [decide_eq_true_eq] at ha hb
  exact Nat.lt_of_le_of_ne (hab.2 (ha.trans hb.symm)) hab.1

/-- In a list in order, the last report is the latest one. -/
theorem time_le_last {reports : List Snapshot}
    (h : (reports ++ [s]).Pairwise fun a b ↦ a.time < b.time) :
    ∀ other ∈ reports ++ [s], other.time ≤ s.time := by
  intro other hother
  obtain ⟨-, -, hlast⟩ := List.pairwise_append.mp h
  rcases List.mem_append.mp hother with hold | hnew
  · exact Nat.le_of_lt (hlast other hold s (List.mem_singleton_self s))
  · exact Nat.le_of_eq (congrArg _ (List.mem_singleton.mp hnew))

/-- So the last measurement is the latest one. -/
theorem exists_of_getLast?_rtt {reports : List Snapshot}
    (hreports : reports.Pairwise fun a b ↦ a.time < b.time)
    (h : (reports.filterMap Snapshot.rtt).getLast? = some d) :
    ∃ m ∈ reports, m.rtt = some d ∧ ∀ other ∈ reports, other.rtt ≠ none → other.time ≤ m.time := by
  induction reports using List.reverseRecOn with
  | nil => nomatch h
  | append_singleton reports s ih =>
    obtain ⟨hearlier, -, -⟩ := List.pairwise_append.mp hreports
    cases hrtt : s.rtt with
    | none =>
      have hsame : (reports ++ [s]).filterMap Snapshot.rtt = reports.filterMap Snapshot.rtt := by
        simp [hrtt]
      obtain ⟨m, hm, hd, hlatest⟩ := ih hearlier (hsame ▸ h)
      refine ⟨m, List.mem_append_left _ hm, hd, fun other hother hmeasured ↦ ?_⟩
      rcases List.mem_append.mp hother with hold | hnew
      · exact hlatest other hold hmeasured
      · rw [List.mem_singleton.mp hnew] at hmeasured
        exact (hmeasured hrtt).elim
    | some d' =>
      obtain rfl : d' = d := by simpa [hrtt] using h
      exact ⟨s, List.mem_concat_self, hrtt, fun other hother _ ↦ time_le_last hreports other hother⟩

/-- A session with a report was heard of when the latest one came. -/
theorem exists_of_reports_ne_nil (n : Newcomer) (now : Instant)
    (hreports : (reports id since).Pairwise fun a b ↦ a.time < b.time)
    (h : reports id since ≠ []) : ∃ s ∈ reports id since,
      (entryOf id n now since).record.lastHeartbeatAt = s.time ∧
        ∀ other ∈ reports id since, other.time ≤ s.time := by
  obtain ⟨before, s, hsplit⟩ := (List.eq_nil_or_concat' (reports id since)).resolve_left h
  rw [entryOf, hsplit, Record.lastHeartbeatAt_concat]
  rw [hsplit] at hreports
  exact ⟨s, List.mem_concat_self, rfl, time_le_last hreports⟩

/-- An entry has a round trip exactly if a measurement counts for its session. -/
theorem Stays.lastRtt_isSome_iff (h : (new maxClients).Stays acts id n now since) :
    (entryOf id n now since).record.lastRtt.isSome = true ↔
      (new maxClients).Measured acts id := by
  rw [lastRtt_entryOf, List.getLast?_isSome, Ne, List.filterMap_eq_nil_iff]
  constructor
  · intro hsome
    by_contra hnot
    refine hsome fun m hm ↦ ?_
    obtain ⟨hreported, hsession⟩ := h.reported_iff.mpr hm
    by_contra hmeasured
    exact hnot ⟨m, hreported, hsession, hmeasured⟩
  · rintro ⟨m, hreported, hsession, hmeasured⟩ hnone
    exact hmeasured (hnone m (h.reported_iff.mp ⟨hreported, hsession⟩))

theorem Measured.exists_stays (h : l.Measured acts id) :
    ∃ n now since, l.Stays acts id n now since := by
  obtain ⟨m, ⟨n, now, since, hstays, -⟩, rfl, -⟩ := h
  exact ⟨n, now, since, hstays⟩

/-! ## The answer -/

def measuredRecords (l : Ledger) : List Record :=
  (l.registry.entries.map Entry.record).filter (·.lastRtt.isSome)

/-- The measured records are those of the sessions for which a measurement counts. -/
theorem mem_measuredRecords {r : Record} : r ∈ ((new maxClients).perform acts).measuredRecords ↔
    ∃ id n now since, (new maxClients).Stays acts id n now since ∧
      (new maxClients).Measured acts id ∧ r = (entryOf id n now since).record := by
  rw [measuredRecords, List.mem_filter, List.mem_map]
  constructor
  · rintro ⟨⟨e, he, rfl⟩, hrtt⟩
    obtain ⟨id, n, now, since, hstays, rfl⟩ := (mem_entries_iff maxClients acts e).mp he
    exact ⟨id, n, now, since, hstays, hstays.lastRtt_isSome_iff.mp hrtt, rfl⟩
  · rintro ⟨id, n, now, since, hstays, hmeasured, rfl⟩
    exact ⟨⟨_, hstays.mem_entries, rfl⟩, hstays.lastRtt_isSome_iff.mpr hmeasured⟩

theorem latestRtt_eq_none_iff :
    ((new maxClients).perform acts).registry.latestRtt = none ↔
      ∀ s, (new maxClients).Reported acts s → s.rtt = none := by
  constructor
  · intro hnone s hreported
    by_contra hmeasured
    -- The session of the report has a record with a measurement, so one of these is picked.
    obtain ⟨n, now, since, hstays, -⟩ := id hreported
    have hmem := mem_measuredRecords.mpr ⟨_, n, now, since, hstays,
      ⟨s, hreported, rfl, hmeasured⟩, rfl⟩
    rcases hbest : Registry.latestBy Record.lastHeartbeatAt
        ((new maxClients).perform acts).measuredRecords with - | r
    · rw [Registry.latestBy_eq_none_iff.mp hbest] at hmem
      nomatch hmem
    · have hrtt := (List.mem_filter.mp (Registry.of_latestBy hbest).1).2
      have hanswer : ((new maxClients).perform acts).registry.latestRtt = r.lastRtt := by
        rw [Registry.latestRtt, ← measuredRecords, hbest, Option.bind_some]
      rw [← hanswer, hnone] at hrtt
      nomatch hrtt
  · intro hnone
    have hnil : ((new maxClients).perform acts).measuredRecords = [] := by
      refine List.eq_nil_iff_forall_not_mem.mpr fun r hr ↦ ?_
      obtain ⟨id, n, now, since, -, ⟨m, hreported, -, hmeasured⟩, -⟩ := mem_measuredRecords.mp hr
      exact hmeasured (hnone m hreported)
    rw [Registry.latestRtt, ← measuredRecords, hnil]
    rfl

section Timely

variable (htimes : ((snapshots acts).map Snapshot.time).Nodup)
  (horder : (snapshots acts).Pairwise fun a b ↦ a.session = b.session → a.time ≤ b.time)

include htimes horder

/-- A session with a measurement was heard of when the latest report about it came. -/
theorem Stays.exists_heard (h : (new maxClients).Stays acts id n now since)
    (hmeasured : (new maxClients).Measured acts id) :
    ∃ s, (new maxClients).Reported acts s ∧ s.session = id ∧
      (entryOf id n now since).record.lastHeartbeatAt = s.time ∧
      ∀ other, (new maxClients).Reported acts other → other.session = id →
        other.time ≤ s.time := by
  have hne : reports id since ≠ [] := by
    obtain ⟨m, hreported, hsession, -⟩ := hmeasured
    exact List.ne_nil_of_mem (h.reported_iff.mp ⟨hreported, hsession⟩)
  obtain ⟨s, hs, hheard, hlatest⟩ :=
    exists_of_reports_ne_nil n now (h.reports_pairwise htimes horder) hne
  obtain ⟨hreported, hsession⟩ := h.reported_iff.mpr hs
  exact ⟨s, hreported, hsession, hheard, fun other hother hsame ↦
    hlatest other (h.reported_iff.mp ⟨hother, hsame⟩)⟩

/-- The round trip of an entry is the latest measurement that counts for its session. -/
theorem Stays.exists_lastMeasured (h : (new maxClients).Stays acts id n now since)
    (hrtt : (entryOf id n now since).record.lastRtt = some d) :
    ∃ m, (new maxClients).LastMeasured acts m ∧ m.session = id ∧ m.rtt = some d := by
  rw [lastRtt_entryOf] at hrtt
  obtain ⟨m, hm, hd, hlatest⟩ := exists_of_getLast?_rtt (h.reports_pairwise htimes horder) hrtt
  obtain ⟨hreported, rfl⟩ := h.reported_iff.mpr hm
  exact ⟨m, ⟨hreported, by rw [hd]; nofun, fun other hother hsame ↦
    hlatest other (h.reported_iff.mp ⟨hother, hsame⟩)⟩, rfl, hd⟩

/-- The answer is the last measurement of the session that was heard of last. -/
theorem exists_of_latestRtt
    (h : ((new maxClients).perform acts).registry.latestRtt = some d) :
    ∃ heard m, (new maxClients).LastHeard acts heard ∧ (new maxClients).LastMeasured acts m ∧
      m.session = heard.session ∧ m.rtt = some d := by
  obtain ⟨r, hbest, hrtt⟩ := Option.bind_eq_some_iff.mp h
  obtain ⟨hmem, hgreatest⟩ := Registry.of_latestBy hbest
  obtain ⟨id, n, now, since, hstays, hmeasured, rfl⟩ := mem_measuredRecords.mp hmem
  obtain ⟨heard, hreported, rfl, hheard, -⟩ := hstays.exists_heard htimes horder hmeasured
  obtain ⟨m, hm, hsession, hd⟩ := hstays.exists_lastMeasured htimes horder hrtt
  refine ⟨heard, m, ⟨hreported, hmeasured, fun other hother hmeasured' ↦ ?_⟩, hm, hsession, hd⟩
  -- Another session with a measurement has a record too, which was not picked.
  obtain ⟨n', now', since', hstays'⟩ := hmeasured'.exists_stays
  obtain ⟨s, -, -, hheard', hlatest⟩ := hstays'.exists_heard htimes horder hmeasured'
  have hle := hgreatest _ (mem_measuredRecords.mpr ⟨_, n', now', since', hstays', hmeasured', rfl⟩)
  rw [hheard, hheard'] at hle
  exact Nat.le_trans (hlatest other hother rfl) hle

theorem latestRtt_eq_some_iff :
    ((new maxClients).perform acts).registry.latestRtt = some d ↔
      ∃ heard m, (new maxClients).LastHeard acts heard ∧ (new maxClients).LastMeasured acts m ∧
        m.session = heard.session ∧ m.rtt = some d := by
  constructor
  · exact exists_of_latestRtt htimes horder
  · rintro ⟨heard, m, hheard, hm, hsession, hd⟩
    rcases hanswer : ((new maxClients).perform acts).registry.latestRtt with - | d'
    · exact (hm.measured (latestRtt_eq_none_iff.mp hanswer m hm.reported)).elim
    · obtain ⟨heard', m', hheard', hm', hsession', hd'⟩ :=
        exists_of_latestRtt htimes horder hanswer
      rw [← hd', ← hd, hheard.rtt_unique htimes hheard' hm hm' hsession hsession']

end Timely

/-- **The round trip of the session heard of last.** Reports come at different times, and those
about one session in the order of their times. Then there is an answer exactly if a measurement
counts, and it is the last measurement of the session that was heard of last among those with one.
It is the most recent measurement of all, provided that every other session with a measurement was
last heard of before the session of that measurement was. -/
theorem latest_round_trip (maxClients : Nat) (acts : List Act)
    (htimes : ((snapshots acts).map Snapshot.time).Nodup)
    (horder : (snapshots acts).Pairwise fun a b ↦ a.session = b.session → a.time ≤ b.time) :
    let l := new maxClients
    let answer := (l.perform acts).registry.latestRtt
    (answer = none ↔ ∀ s, l.Reported acts s → s.rtt = none) ∧
    (∀ d, answer = some d ↔ ∃ heard m, l.LastHeard acts heard ∧ l.LastMeasured acts m ∧
      m.session = heard.session ∧ m.rtt = some d) ∧
    ∀ m, l.MostRecent acts m →
      (∀ s, l.Reported acts s → l.Measured acts s.session → s.session ≠ m.session →
        ∃ own, l.Reported acts own ∧ own.session = m.session ∧ s.time < own.time) →
      answer = m.rtt := by
  intro l answer
  refine ⟨latestRtt_eq_none_iff, fun d ↦ latestRtt_eq_some_iff htimes horder, ?_⟩
  intro m hm houtdone
  obtain ⟨d, hd⟩ := Option.ne_none_iff_exists'.mp hm.measured
  have hmeasured : l.Measured acts m.session := ⟨m, hm.reported, rfl, hm.measured⟩
  obtain ⟨n, now, since, hstays⟩ := hmeasured.exists_stays
  obtain ⟨heard, hreported, hsession, -, hlatest⟩ := hstays.exists_heard htimes horder hmeasured
  rw [hd]
  refine (latestRtt_eq_some_iff htimes horder).mpr ⟨heard, m, ⟨hreported, hsession ▸ hmeasured,
    fun s hs hothers ↦ ?_⟩, ⟨hm.reported, hm.measured, fun other hother _ ↦ hm.latest other hother⟩,
    hsession.symm, hd⟩
  by_cases hsame : s.session = m.session
  · exact hlatest s hs hsame
  · obtain ⟨own, hown, hsession', hlt⟩ := houtdone s hs hothers hsame
    exact Nat.le_trans (Nat.le_of_lt hlt) (hlatest own hown hsession')

/-- The first of two sessions measures 5, then the second one 7. A last report about the first one
carries no measurement, and the answer goes back to 5. -/
theorem brought_up_again :
    let first : SessionId := ⟨⟨List.replicate 16 1, rfl⟩⟩
    let second : SessionId := ⟨⟨List.replicate 16 2, rfl⟩⟩
    let guest : Newcomer := ⟨⟨⟨List.replicate 16 8, rfl⟩, "laptop", 0⟩, ⟨1, 0⟩, none⟩
    let old : Snapshot := ⟨first, 10, some 5, 1, 1⟩
    let recent : Snapshot := ⟨second, 20, some 7, 1, 1⟩
    let late : Snapshot := ⟨first, 30, none, 2, 2⟩
    let acts : List Act :=
      [.create [first] guest 0, .create [second] guest 1, .update old, .update recent, .update late]
    let l := new 2
    ((snapshots acts).map Snapshot.time).Nodup ∧
      ((snapshots acts).Pairwise fun a b ↦ a.session = b.session → a.time ≤ b.time) ∧
      (l.perform acts).registry.latestRtt = some 5 ∧
      (∃ heard m, l.LastHeard acts heard ∧ l.LastMeasured acts m ∧
        m.session = heard.session ∧ m.rtt = some 5) ∧
      l.Reported acts recent ∧ recent.rtt = some 7 ∧ old.time < recent.time := by
  intro first second guest old recent late acts l
  have htimes : ((snapshots acts).map Snapshot.time).Nodup := by decide
  have horder : (snapshots acts).Pairwise fun a b ↦ a.session = b.session → a.time ≤ b.time := by
    decide
  have hanswer : (l.perform acts).registry.latestRtt = some 5 := by decide +kernel
  obtain ⟨-, hshown, -⟩ := latest_round_trip 2 acts htimes horder
  refine ⟨htimes, horder, hanswer, (hshown 5).mp hanswer, ?_, rfl, by decide⟩
  have hstays : l.Stays acts second guest 1 [.update old, .update recent, .update late] :=
    ⟨⟨[.create [first] guest 0], .create [second] guest 1, rfl, rfl, by decide +kernel⟩, by simp⟩
  exact ⟨guest, 1, _, hstays, by simp⟩

end Ledger

end DeskLink.Server
