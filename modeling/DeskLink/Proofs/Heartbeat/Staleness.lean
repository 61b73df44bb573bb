import Mathlib.Tactic.Ring
import DeskLink.Proofs.Heartbeat.Diary

/-!
# When the other side counts as gone

A poll finds the other side gone exactly from twice the interval after it was heard last, whatever
the calls before.

More can be said when each poll comes at the instant at which the monitor asked to be woken. The
heartbeats then go out at the multiples of the interval, and a poll either sends the next one or
comes exactly at twice the interval after the other side was heard last. `Regular` says this of the
entries of a diary, and the rest follows from it without the monitor. There is no false alarm: for
the other side to be gone, two heartbeats must have gone out since it was heard last, and the first
of them had its whole interval to be acknowledged. And no alarm is missed: between the last
acknowledgement and twice the interval after it there is room for two heartbeats only, so that the
third poll is the alarm.
-/

namespace DeskLink.Heartbeat

/-! ## Polls at the wake-up -/

/-- The call, if it is a poll, comes exactly when the monitor asked to be woken. -/
def Call.AtWakeup (m : Monitor) : Call → Prop
  | .poll now => now = m.nextWakeup
  | .ack .. => True

/-- Each poll among these calls comes exactly when the monitor asked to be woken. -/
def Diary.Punctual (d : Diary) : List Call → Prop
  | [] => True
  | c :: cs => c.AtWakeup d.monitor ∧ (d.call c).Punctual cs

/-- Every heartbeat was acknowledged before the next one was due, as far as time has come. -/
def InTime (interval : Duration) (entries : List Entry) : Prop :=
  ∀ later token sent earlier, entries = later ++ .polled sent (.beat token) :: earlier →
    (∃ e ∈ later, sent + interval ≤ e.time) →
    ∃ now rtt, .acked token now rtt ∈ later ∧ now < sent + interval

def Entry.isPoll : Entry → Bool
  | polled .. => true
  | acked .. => false

/-- The instant of the heartbeat after the first `n`. -/
def beatAt (interval : Duration) (t₀ : Instant) (n : Nat) : Instant := t₀ + (n + 1) * interval

theorem beatAt_succ (interval : Duration) (t₀ : Instant) (n : Nat) :
    beatAt interval t₀ (n + 1) = beatAt interval t₀ n + interval := by
  rw [beatAt, beatAt]
  ring

/-- What a diary looks like when each poll comes at the wake-up. -/
inductive Regular (interval : Duration) (t₀ : Instant) : List Entry → Prop where
  | nil : Regular interval t₀ []
  | acked {token : Nat} {now : Instant} {rtt : Option Duration} {entries : List Entry}
      (hearlier : Regular interval t₀ entries) :
      Regular interval t₀ (.acked token now rtt :: entries)
  | beats {entries : List Entry} (hearlier : Regular interval t₀ entries)
      (hfresh : beatAt interval t₀ (issued entries).length < heard t₀ entries + 2 * interval) :
      Regular interval t₀ (.polled (beatAt interval t₀ (issued entries).length)
        (.beat ((issued entries).length + 1)) :: entries)
  | stale {entries : List Entry} (hearlier : Regular interval t₀ entries)
      (hdue : heard t₀ entries + 2 * interval ≤ beatAt interval t₀ (issued entries).length) :
      Regular interval t₀ (.polled (heard t₀ entries + 2 * interval) (.stale (2 * interval))
        :: entries)

variable {interval : Duration} {t₀ : Instant} {entries later earlier : List Entry}

namespace Diary

variable {d : Diary} {c : Call} {cs : List Call}

/-- The diary is regular, and the monitor knows when the next heartbeat goes out. -/
structure Steady (interval : Duration) (t₀ : Instant) (d : Diary) : Prop
    extends Books interval t₀ d where
  regular : Regular interval t₀ d.entries
  nextBeat_eq : d.monitor.nextBeat = beatAt interval t₀ (issued d.entries).length

private theorem steady_start (interval : Duration) (t₀ : Instant) :
    Steady interval t₀ (.start interval t₀) where
  toBooks := books_start interval t₀
  regular := .nil
  nextBeat_eq := by simp [start, Monitor.start, issued, beatAt]

theorem Steady.ack (h : Steady interval t₀ d) (token : Nat) (now : Instant) :
    Steady interval t₀ (d.call (.ack token now)) := by
  refine ⟨h.toBooks.ack token now, .acked h.regular, ?_⟩
  have hacks := d.monitor.acks token now
  rw [Diary.call]
  generalize d.monitor.onAck token now = acked at hacks ⊢
  obtain ⟨rtt, monitor⟩ := acked
  cases hacks <;> exact h.nextBeat_eq

theorem Steady.poll (h : Steady interval t₀ d) :
    Steady interval t₀ (d.call (.poll d.monitor.nextWakeup)) := by
  have hbooks := h.toBooks.poll d.monitor.nextWakeup
  have hpolls := d.monitor.polls d.monitor.nextWakeup
  have hstaleAt := h.staleAt_eq
  have hnextBeat := h.nextBeat_eq
  have hwakeup : d.monitor.nextWakeup = min d.monitor.nextBeat d.monitor.staleAt := rfl
  rw [Diary.call] at hbooks ⊢
  generalize d.monitor.nextWakeup = now at hbooks hpolls hwakeup ⊢
  generalize d.monitor.poll now = polled at hbooks hpolls ⊢
  obtain ⟨due, monitor⟩ := polled
  cases hpolls with
  | waits hfresh hearly => lia
  | stale hdue =>
    obtain rfl : now = heard t₀ d.entries + 2 * interval := by lia
    refine ⟨hbooks, ?_, hnextBeat⟩
    rw [h.lastAck_eq, Nat.add_sub_cancel_left]
    exact .stale h.regular (by lia)
  | beats hfresh hdue =>
    obtain rfl : now = beatAt interval t₀ (issued d.entries).length := by lia
    refine ⟨hbooks, ?_, ?_⟩
    · rw [h.lastToken_eq]
      exact .beats h.regular (by lia)
    · simp only [issued, List.length_append, List.length_singleton, h.interval_eq, beatAt_succ]

theorem Steady.call (h : Steady interval t₀ d) (hc : c.AtWakeup d.monitor) :
    Steady interval t₀ (d.call c) := by
  cases c with
  | ack token now => exact h.ack token now
  | poll now =>
    obtain rfl : now = d.monitor.nextWakeup := hc
    exact h.poll

theorem Steady.calls (h : Steady interval t₀ d) (hcs : d.Punctual cs) :
    Steady interval t₀ (d.calls cs) := by
  induction cs generalizing d with
  | nil => exact h
  | cons c cs ih => exact ih (h.call hcs.1) hcs.2

end Diary

/-! ## Regular diaries -/

theorem Regular.of_append (h : Regular interval t₀ (later ++ earlier)) :
    Regular interval t₀ earlier := by
  induction later with
  | nil => exact h
  | cons e later ih => cases h <;> exact ih ‹_›

/-- **The heartbeats go out at the multiples of the interval**, with consecutive tokens. -/
theorem Regular.issued_eq (h : Regular interval t₀ entries) :
    issued entries =
      (List.range (issued entries).length).map fun n ↦ (n + 1, beatAt interval t₀ n) := by
  induction h with
  | nil => rfl
  | acked _ ih => exact ih
  | stale _ _ ih => exact ih
  | beats _ _ ih =>
    simp only [issued, List.length_append, List.length_singleton, List.range_succ, List.map_append,
      ← ih, List.map_singleton]

theorem Regular.mem_issued {n : Nat} (h : Regular interval t₀ entries)
    (hn : n < (issued entries).length) : (n + 1, beatAt interval t₀ n) ∈ issued entries := by
  rw [h.issued_eq]
  exact List.mem_map_of_mem (List.mem_range.mpr hn)

/-! ### No false alarm -/

theorem InTime.of_cons {e : Entry} (h : InTime interval (e :: entries))
    (horder : InOrder t₀ (e :: entries)) : InTime interval entries := by
  rintro later token sent earlier rfl ⟨e', he', hdue⟩
  obtain ⟨now, rtt, hacked, hnow⟩ :=
    h (e :: later) token sent earlier rfl ⟨e', List.mem_cons_of_mem _ he', hdue⟩
  rcases List.mem_cons.mp hacked with rfl | hacked
  · -- What is acknowledged only now was not acknowledged in time.
    have hle : e'.time ≤ now :=
      horder.le_time (List.mem_append_left _ (List.mem_map_of_mem (List.mem_append_left _ he')))
    lia
  · exact ⟨now, rtt, hacked, hnow⟩

/-- A heartbeat that had its whole interval was heard of after it went out. -/
theorem InTime.sent_le_heard {e : Entry} {token : Nat} {sent : Instant}
    (h : InTime interval (e :: entries)) (horder : InOrder t₀ (e :: entries))
    (hissued : (token, sent) ∈ issued entries) (hdue : sent + interval ≤ e.time) :
    sent ≤ heard t₀ entries := by
  obtain ⟨later, earlier, rfl⟩ := exists_of_issued hissued
  obtain ⟨now, rtt, hacked, hnow⟩ :=
    h (e :: later) token sent earlier rfl ⟨e, List.mem_cons_self, hdue⟩
  rcases List.mem_cons.mp hacked with rfl | hacked
  · exact absurd hnow (Nat.not_lt.mpr hdue)
  · have hsent : sent ≤ now := horder.of_cons.time_le hacked
    obtain ⟨newer, older, rfl⟩ := List.append_of_mem hacked
    refine Nat.le_trans hsent (horder.of_cons.le_heard ?_)
    rw [List.append_assoc, List.cons_append]
    exact mem_answered mem_tokens

/-- **No false alarm.** While every heartbeat is acknowledged in time, no poll finds the other side
gone. -/
theorem Regular.not_stale (hinterval : 0 < interval) (h : Regular interval t₀ entries)
    (horder : InOrder t₀ entries) (htime : InTime interval entries) (now : Instant)
    (silent : Duration) : .polled now (.stale silent) ∉ entries := by
  induction h with
  | nil => exact List.not_mem_nil
  | acked hearlier ih | beats hearlier _ ih =>
    rw [List.mem_cons, not_or]
    exact ⟨nofun, ih horder.of_cons (htime.of_cons horder)⟩
  | @stale entries hearlier hdue ih =>
    -- The last two heartbeats had their whole interval, or there was only one since the beginning.
    have hheard := horder.of_cons.start_le
    have hsent : ∀ n < (issued entries).length,
        beatAt interval t₀ n + interval ≤ heard t₀ entries + 2 * interval →
        beatAt interval t₀ n ≤ heard t₀ entries := fun n hn hle ↦
      htime.sent_le_heard horder (hearlier.mem_issued hn) hle
    cases hcount : (issued entries).length with
    | zero =>
      rw [hcount, beatAt] at hdue
      lia
    | succ n =>
      rw [hcount, beatAt_succ] at hdue
      cases n with
      | zero =>
        have hlast := hsent 0 (by lia)
        rw [beatAt] at hdue hlast
        lia
      | succ n =>
        have hlate : beatAt interval t₀ (n + 1) ≤ heard t₀ entries + 2 * interval :=
          horder.le_time (List.mem_append_left _
            (mem_times_of_issued (hearlier.mem_issued (by lia : n + 1 < _))))
        rw [beatAt_succ] at hlate
        have hbefore := hsent n (by lia)
        have hlast := hsent (n + 1) (by lia)
        rw [beatAt_succ] at hdue hlast
        lia

/-! ### No missed alarm -/

/-- A poll either sends a heartbeat before twice the interval is over, or finds the other side gone
at that instant. -/
theorem Regular.polled_cases {now : Instant} {due : Due}
    (h : Regular interval t₀ (.polled now due :: entries)) :
    (now < heard t₀ entries + 2 * interval ∧ ∃ token, due = .beat token) ∨
      (now = heard t₀ entries + 2 * interval ∧ due = .stale (2 * interval)) := by
  cases h with
  | beats _ hfresh => exact .inl ⟨hfresh, _, rfl⟩
  | stale => exact .inr ⟨rfl, rfl⟩

/-- Since the other side was heard last, either it has been found gone, or every poll has sent a
heartbeat, and before twice the interval was over. -/
theorem Regular.stale_or_beats (h : Regular interval t₀ (later ++ earlier))
    (horder : InOrder t₀ (later ++ earlier))
    (hsilence : answered (later ++ earlier) = answered earlier) :
    .polled (heard t₀ earlier + 2 * interval) (.stale (2 * interval)) ∈ later ∨
    (issued (later ++ earlier)).length = (issued earlier).length + later.countP Entry.isPoll ∧
    ∀ n, (issued earlier).length ≤ n → n < (issued (later ++ earlier)).length →
      heard t₀ earlier ≤ beatAt interval t₀ n ∧
      beatAt interval t₀ n < heard t₀ earlier + 2 * interval := by
  -- Nobody is heard of in `later`, so the deadline is the same at each of its entries.
  induction later with
  | nil => exact .inr ⟨rfl, fun n hle hlt ↦ absurd hlt (Nat.not_lt.mpr hle)⟩
  | cons e later ih =>
    replace h : Regular interval t₀ (e :: (later ++ earlier)) := h
    have hsilence' : answered (later ++ earlier) = answered earlier :=
      answered_of_append (show answered ([e] ++ later ++ earlier) = answered earlier from hsilence)
    have hheard : heard t₀ (later ++ earlier) = heard t₀ earlier := by
      rw [heard, heard, hsilence']
    have hsince := horder.heard_le
    rw [List.append_eq, hheard] at hsince
    have hrest : Regular interval t₀ (later ++ earlier) :=
      (show Regular interval t₀ ([e] ++ (later ++ earlier)) from h).of_append
    rcases ih hrest horder.of_cons hsilence' with hstale | ⟨hcount, hbeats⟩
    · exact .inl (List.mem_cons_of_mem _ hstale)
    · cases h with
      | acked => exact .inr ⟨hcount, hbeats⟩
      | stale => exact .inl (by rw [hheard]; exact List.mem_cons_self)
      | beats hearlier hfresh =>
        rw [hheard] at hfresh
        have hlength : ∀ now token,
            (issued (.polled now (.beat token) :: (later ++ earlier))).length =
              (issued (later ++ earlier)).length + 1 := by simp [issued]
        have hpolls : ∀ now due, (Entry.polled now due :: later).countP Entry.isPoll
            = later.countP Entry.isPoll + 1 := fun _ _ ↦ List.countP_cons_of_pos rfl
        refine .inr ⟨?_, fun n hle hlt ↦ ?_⟩
        · rw [List.cons_append, hlength, hpolls, hcount, Nat.add_assoc]
        · rw [List.cons_append, hlength] at hlt
          rcases Nat.lt_succ_iff_lt_or_eq.mp hlt with hlt | rfl
          · exact hbeats n hle hlt
          · exact ⟨hsince, hfresh⟩

/-- **No missed alarm.** Of three polls since the other side was heard last, one has found it gone,
at twice the interval after that. -/
theorem Regular.stale_of_three_polls (h : Regular interval t₀ (later ++ earlier))
    (horder : InOrder t₀ (later ++ earlier))
    (hsilence : answered (later ++ earlier) = answered earlier)
    (hpolls : 3 ≤ later.countP Entry.isPoll) :
    .polled (heard t₀ earlier + 2 * interval) (.stale (2 * interval)) ∈ later := by
  refine (h.stale_or_beats horder hsilence).resolve_right ?_
  rintro ⟨hcount, hbeats⟩
  -- The third heartbeat would go out at twice the interval after the first.
  have hfirst := (hbeats (issued earlier).length (Nat.le_refl _) (by lia)).1
  have hthird := (hbeats ((issued earlier).length + 2) (by lia) (by lia)).2
  rw [beatAt_succ, beatAt_succ] at hthird
  lia

/-- Since the other side was heard last, a poll before twice the interval is over sends a heartbeat,
and there is none later than that. -/
theorem Regular.polled_since {now : Instant} {due : Due}
    (h : Regular interval t₀ (later ++ earlier))
    (hsilence : answered (later ++ earlier) = answered earlier)
    (hpolled : .polled now due ∈ later) :
    (now < heard t₀ earlier + 2 * interval ∧ ∃ token, due = .beat token) ∨
      (now = heard t₀ earlier + 2 * interval ∧ due = .stale (2 * interval)) := by
  obtain ⟨newer, older, rfl⟩ := List.append_of_mem hpolled
  rw [List.append_assoc, List.cons_append] at h hsilence
  have hsilence' : answered (older ++ earlier) = answered earlier :=
    answered_of_append (show answered ((newer ++ [.polled now due]) ++ older ++ earlier) =
      answered earlier by simpa using hsilence)
  have hheard : heard t₀ (older ++ earlier) = heard t₀ earlier := by
    rw [heard, heard, hsilence']
  rw [← hheard]
  exact h.of_append.polled_cases

/-! ## Staleness -/

open Diary (Punctual)

/-- **Staleness is exact.** Whatever the calls, a poll finds the other side gone exactly from twice
the interval after it was heard last, that is, after the last acknowledgement of one of the tokens
issued until then, which are the first numbers from one on. When the calls are in the order of time
and each poll comes at the wake-up, the heartbeats go out at the multiples of the interval with
consecutive tokens; nobody is found gone while every heartbeat is acknowledged before the next one
is due; and when nobody was heard since some moment, the polls since then send heartbeats until, by
the third one at the latest, a poll at exactly twice the interval after the other side was heard
last finds it gone. -/
theorem staleness (hinterval : 0 < interval) (t₀ : Instant) (calls : List Call)
    (htimes : (t₀ :: calls.map Call.time).IsChain (· ≤ ·)) :
    let d := (Diary.start interval t₀).calls calls
    (∀ now, (∃ silent, (d.monitor.poll now).1 = .stale silent) ↔
      heard t₀ d.entries + 2 * interval ≤ now) ∧
    tokens d.entries = List.range' 1 (issued d.entries).length ∧
    ((Diary.start interval t₀).Punctual calls →
      issued d.entries = (List.range (issued d.entries).length).map
        (fun n ↦ (n + 1, t₀ + (n + 1) * interval)) ∧
      (InTime interval d.entries → ∀ now silent, .polled now (.stale silent) ∉ d.entries) ∧
      ∀ later earlier, d.entries = later ++ earlier → answered d.entries = answered earlier →
        (∀ now due, .polled now due ∈ later →
          (now < heard t₀ earlier + 2 * interval ∧ ∃ token, due = .beat token) ∨
          (now = heard t₀ earlier + 2 * interval ∧ due = .stale (2 * interval))) ∧
        (3 ≤ later.countP Entry.isPoll →
          .polled (heard t₀ earlier + 2 * interval) (.stale (2 * interval)) ∈ later)) := by
  intro d
  have hbooks := (Diary.books_start interval t₀).calls calls
  have horder : InOrder t₀ d.entries := Diary.inOrder_calls htimes
  refine ⟨fun now ↦ ?_, ?_, fun hpunctual ↦ ?_⟩
  · rw [← hbooks.staleAt_eq]
    have hpolls := d.monitor.polls now
    generalize d.monitor.poll now = polled at hpolls ⊢
    obtain ⟨due, monitor⟩ := polled
    cases hpolls with
    | stale hdue => exact ⟨fun _ ↦ hdue, fun _ ↦ ⟨_, rfl⟩⟩
    | beats hfresh | waits hfresh => exact ⟨nofun, fun hdue ↦ absurd hdue (Nat.not_le.mpr hfresh)⟩
  · exact hbooks.lastToken_eq ▸ hbooks.tokens_eq
  · have hregular : Regular interval t₀ d.entries :=
      ((Diary.steady_start interval t₀).calls hpunctual).regular
    refine ⟨hregular.issued_eq, hregular.not_stale hinterval horder, ?_⟩
    intro later earlier hentries hsilence
    rw [hentries] at hregular horder hsilence
    exact ⟨fun now due ↦ hregular.polled_since hsilence,
      hregular.stale_of_three_polls horder hsilence⟩

/-- Two heartbeats are acknowledged, the second one at 30, and the third and the fourth are not; a
token that was never issued does not help. -/
theorem staleness_unheard :
    let calls := [.poll 15, .ack 1 18, .poll 25, .ack 2 30, .ack 9 31, .poll 35, .poll 45, .poll 50]
    let d := (Diary.start 10 5).calls calls
    (5 :: calls.map Call.time).IsChain (· ≤ ·) ∧ (Diary.start 10 5).Punctual calls ∧
    d.entries.countP Entry.isPoll = 5 ∧
    .polled 50 (.stale 20) ∈ d.entries.take 4 := by
  intro calls d
  have htimes : (5 :: calls.map Call.time).IsChain (· ≤ ·) := by decide
  have hpunctual : (Diary.start 10 5).Punctual calls :=
    ⟨rfl, trivial, rfl, trivial, trivial, rfl, rfl, rfl, trivial⟩
  obtain ⟨-, -, hsince⟩ := (staleness (by decide : 0 < 10) 5 calls htimes).2.2 hpunctual
  exact ⟨htimes, hpunctual, rfl,
    (hsince (d.entries.take 4) (d.entries.drop 4) rfl rfl).2 (by decide)⟩

end DeskLink.Heartbeat
