import Mathlib.Data.List.Basic
import DeskLink.Proofs.Heartbeat.Moves

/-!
# The diary of a monitor

A `Diary` is a monitor together with everything that has come of its calls. What the monitor is
supposed to know is said of the entries alone: which heartbeats have been issued (`issued`), when
the other side was heard last (`heard`), and which heartbeat is still open (`Open`). That the
monitor has the same in its books is the invariant `Books`.

Entries stand with the latest first, so that what came before an entry is the rest of the list, and
each of these notions is a recursion over it.
-/

namespace DeskLink.Heartbeat

/-! ## Calls and what comes of them -/

/-- A call of a monitor. -/
inductive Call where
  | poll (now : Instant)
  | ack (token : Nat) (now : Instant)

def Call.time : Call → Instant
  | poll now => now
  | ack _ now => now

/-- What came of a call. -/
inductive Entry where
  | polled (now : Instant) (due : Due)
  | acked (token : Nat) (now : Instant) (rtt : Option Duration)
  deriving DecidableEq

def Entry.time : Entry → Instant
  | polled now _ => now
  | acked _ now _ => now

/-- The heartbeats that have been issued, by token and instant. -/
def issued : List Entry → List (Nat × Instant)
  | [] => []
  | .polled now (.beat token) :: earlier => issued earlier ++ [(token, now)]
  | _ :: earlier => issued earlier

/-- The tokens of the heartbeats that have been issued. -/
def tokens (entries : List Entry) : List Nat := (issued entries).map (·.1)

/-- The instants at which a heartbeat that had been issued was acknowledged. -/
def answered : List Entry → List Instant
  | [] => []
  | .acked token now _ :: earlier =>
    if token ∈ tokens earlier then now :: answered earlier else answered earlier
  | .polled .. :: earlier => answered earlier

/-- When the other side was heard last; at first, when it all began. -/
def heard (t₀ : Instant) (entries : List Entry) : Instant := (answered entries).headD t₀

/-- The round trips that have been measured. -/
def measured : List Entry → List Duration
  | [] => []
  | .acked _ _ (some rtt) :: earlier => rtt :: measured earlier
  | _ :: earlier => measured earlier

/-- The heartbeat with this token was issued at this instant, none was issued since, and it has not
been acknowledged since. -/
def Open (token : Nat) (sent : Instant) (entries : List Entry) : Prop :=
  ∃ later earlier, entries = later ++ .polled sent (.beat token) :: earlier ∧
    (∀ now other, .polled now (.beat other) ∉ later) ∧ ∀ now rtt, .acked token now rtt ∉ later

/-- The entries are in the order of time, and none is before this instant. -/
def InOrder (t₀ : Instant) (entries : List Entry) : Prop :=
  (entries.map Entry.time ++ [t₀]).Pairwise (· ≥ ·)

section Entries

variable {t₀ : Instant} {e : Entry} {entries later earlier : List Entry} {token : Nat}
  {sent now : Instant} {rtt : Option Duration}

theorem issued_append (later earlier : List Entry) :
    issued (later ++ earlier) = issued earlier ++ issued later := by
  induction later with
  | nil => simp [issued]
  | cons e later ih =>
    cases e with
    | acked => simpa [issued] using ih
    | polled now due => cases due <;> simp [issued, ih]

theorem tokens_append (later earlier : List Entry) :
    tokens (later ++ earlier) = tokens earlier ++ tokens later := by
  rw [tokens, issued_append, List.map_append, tokens, tokens]

theorem mem_tokens : token ∈ tokens (later ++ .polled sent (.beat token) :: earlier) := by
  rw [tokens, issued_append]
  simp [issued]

theorem exists_of_issued (h : (token, sent) ∈ issued entries) :
    ∃ later earlier, entries = later ++ .polled sent (.beat token) :: earlier := by
  induction entries with
  | nil => simp [issued] at h
  | cons e entries ih =>
    have hearlier : (token, sent) ∈ issued entries →
        ∃ later earlier, e :: entries = later ++ .polled sent (.beat token) :: earlier := by
      intro hmem
      obtain ⟨later, earlier, rfl⟩ := ih hmem
      exact ⟨e :: later, earlier, rfl⟩
    cases e with
    | acked => exact hearlier h
    | polled now due =>
      cases due with
      | nothing | stale => exact hearlier h
      | beat other =>
        rw [issued, List.mem_append, List.mem_singleton] at h
        rcases h with h | h
        · exact hearlier h
        · obtain ⟨rfl, rfl⟩ := Prod.mk.inj h
          exact ⟨[], entries, rfl⟩

theorem mem_times_of_issued (h : (token, sent) ∈ issued entries) :
    sent ∈ entries.map Entry.time := by
  obtain ⟨later, earlier, rfl⟩ := exists_of_issued h
  simp [Entry.time]

theorem answered_append (later earlier : List Entry) :
    ∃ more, answered (later ++ earlier) = more ++ answered earlier := by
  induction later with
  | nil => exact ⟨[], rfl⟩
  | cons e later ih =>
    obtain ⟨more, ih⟩ := ih
    cases e with
    | polled => exact ⟨more, ih⟩
    | acked token now rtt =>
      rw [List.cons_append, answered]
      split
      · exact ⟨now :: more, by rw [ih, List.cons_append]⟩
      · exact ⟨more, ih⟩

/-- When nobody was heard since, nobody was heard until any moment in between. -/
theorem answered_of_append (h : answered (later ++ entries ++ earlier) = answered earlier) :
    answered (entries ++ earlier) = answered earlier := by
  obtain ⟨more, hmore⟩ := answered_append later (entries ++ earlier)
  obtain ⟨fewer, hfewer⟩ := answered_append entries earlier
  rw [List.append_assoc, hmore, hfewer, ← List.append_assoc] at h
  have hnil := List.append_eq_nil_iff.mp (List.append_left_eq_self.mp h)
  rw [hfewer, hnil.2, List.nil_append]

theorem mem_answered (h : token ∈ tokens earlier) :
    now ∈ answered (later ++ .acked token now rtt :: earlier) := by
  obtain ⟨more, hmore⟩ := answered_append later (.acked token now rtt :: earlier)
  rw [hmore, answered, if_pos h]
  exact List.mem_append_right _ List.mem_cons_self

theorem mem_times_of_answered (h : now ∈ answered entries) : now ∈ entries.map Entry.time := by
  induction entries with
  | nil => simp [answered] at h
  | cons e entries ih =>
    cases e with
    | polled => exact List.mem_cons_of_mem _ (ih h)
    | acked token time rtt =>
      rw [answered] at h
      split at h
      · rcases List.mem_cons.mp h with rfl | h
        · exact List.mem_cons_self
        · exact List.mem_cons_of_mem _ (ih h)
      · exact List.mem_cons_of_mem _ (ih h)

theorem heard_mem (t₀ : Instant) (entries : List Entry) :
    heard t₀ entries ∈ entries.map Entry.time ++ [t₀] := by
  rw [heard]
  cases hanswered : answered entries with
  | nil => simp
  | cons now rest =>
    refine List.mem_append_left _ (mem_times_of_answered ?_)
    rw [hanswered]
    exact List.mem_cons_self

/-! ### Order -/

theorem InOrder.of_append (h : InOrder t₀ (later ++ earlier)) : InOrder t₀ earlier := by
  rw [InOrder, List.map_append, List.append_assoc] at h
  exact (List.pairwise_append.mp h).2.1

theorem InOrder.of_cons (h : InOrder t₀ (e :: entries)) : InOrder t₀ entries :=
  (show InOrder t₀ ([e] ++ entries) from h).of_append

theorem InOrder.le_time (h : InOrder t₀ (e :: entries)) {t : Instant}
    (ht : t ∈ entries.map Entry.time ++ [t₀]) : t ≤ e.time :=
  (List.pairwise_cons.mp h).1 t ht

theorem InOrder.time_le {e' : Entry} (h : InOrder t₀ (later ++ e :: earlier)) (he : e' ∈ later) :
    e.time ≤ e'.time := by
  rw [InOrder, List.map_append, List.append_assoc] at h
  exact (List.pairwise_append.mp h).2.2 _ (List.mem_map_of_mem he) _ List.mem_cons_self

theorem InOrder.heard_le (h : InOrder t₀ (e :: entries)) : heard t₀ entries ≤ e.time :=
  h.le_time (heard_mem t₀ entries)

theorem InOrder.start_le (h : InOrder t₀ entries) : t₀ ≤ heard t₀ entries := by
  have hmem := heard_mem t₀ entries
  rcases List.mem_append.mp hmem with hmem | hmem
  · exact (List.pairwise_append.mp h).2.2 _ hmem _ List.mem_cons_self
  · exact Nat.le_of_eq (List.mem_singleton.mp hmem).symm

theorem InOrder.le_heard (h : InOrder t₀ entries) (hnow : now ∈ answered entries) :
    now ≤ heard t₀ entries := by
  induction entries with
  | nil => simp [answered] at hnow
  | cons e entries ih =>
    cases e with
    | polled => exact ih h.of_cons hnow
    | acked token time rtt =>
      rw [heard, answered] at *
      split at hnow
      · rename_i hissued
        rw [if_pos hissued, List.headD_cons]
        rcases List.mem_cons.mp hnow with rfl | hnow
        · exact Nat.le_refl _
        · exact h.le_time (List.mem_append_left _ (mem_times_of_answered hnow))
      · rename_i hissued
        rw [if_neg hissued]
        exact ih h.of_cons hnow

/-! ### The open heartbeat -/

private theorem not_open_nil : ¬ Open token sent [] := by
  rintro ⟨later, earlier, h, -⟩
  exact absurd h (by simp)

theorem open_cons : Open token sent (e :: entries) ↔ e = .polled sent (.beat token) ∨
    Open token sent entries ∧ (∀ now other, e ≠ .polled now (.beat other)) ∧
      ∀ now rtt, e ≠ .acked token now rtt := by
  constructor
  · rintro ⟨later, earlier, h, hbeats, hacks⟩
    cases later with
    | nil => exact .inl (List.cons.inj h).1
    | cons e' later =>
      obtain ⟨rfl, rfl⟩ := List.cons.inj h
      simp only [List.mem_cons, not_or] at hbeats hacks
      exact .inr ⟨⟨later, earlier, rfl, fun now other ↦ (hbeats now other).2,
        fun now rtt ↦ (hacks now rtt).2⟩, fun now other h ↦ (hbeats now other).1 h.symm,
        fun now rtt h ↦ (hacks now rtt).1 h.symm⟩
  · rintro (rfl | ⟨⟨later, earlier, rfl, hbeats, hacks⟩, hbeat, hack⟩)
    · exact ⟨[], entries, rfl, by simp, by simp⟩
    · refine ⟨e :: later, earlier, rfl, fun now other ↦ ?_, fun now rtt ↦ ?_⟩
      · simpa using ⟨(hbeat now other).symm, hbeats now other⟩
      · simpa using ⟨(hack now rtt).symm, hacks now rtt⟩

theorem Open.mem_tokens (h : Open token sent entries) : token ∈ tokens entries := by
  obtain ⟨later, earlier, rfl, -⟩ := h
  exact Heartbeat.mem_tokens

theorem Open.sent_mem (h : Open token sent entries) : sent ∈ entries.map Entry.time := by
  obtain ⟨later, earlier, rfl, -⟩ := h
  simp [Entry.time]

end Entries

/-! ## Diaries -/

/-- A monitor with what has come of its calls. -/
structure Diary where
  monitor : Monitor
  /-- The latest first. -/
  entries : List Entry

namespace Diary

def start (interval : Duration) (now : Instant) : Diary := ⟨.start interval now, []⟩

def call (d : Diary) : Call → Diary
  | .poll now =>
    let (due, monitor) := d.monitor.poll now
    ⟨monitor, .polled now due :: d.entries⟩
  | .ack token now =>
    let (rtt, monitor) := d.monitor.onAck token now
    ⟨monitor, .acked token now rtt :: d.entries⟩

def calls (d : Diary) (cs : List Call) : Diary := cs.foldl call d

@[simp] theorem calls_nil (d : Diary) : d.calls [] = d := rfl

@[simp] theorem calls_cons (d : Diary) (c : Call) (cs : List Call) :
    d.calls (c :: cs) = (d.call c).calls cs := rfl

variable {interval : Duration} {t₀ : Instant} {d : Diary} {c : Call} {cs : List Call}

/-- **The books of a monitor.** What it knows is what stands in its diary. -/
structure Books (interval : Duration) (t₀ : Instant) (d : Diary) : Prop where
  interval_eq : d.monitor.interval = interval
  lastAck_eq : d.monitor.lastAck = heard t₀ d.entries
  tokens_eq : tokens d.entries = List.range' 1 d.monitor.lastToken
  open_iff : ∀ token sent, d.monitor.outstanding = some (token, sent) ↔ Open token sent d.entries
  lastRtt_eq : d.monitor.lastRtt = (measured d.entries).head?

theorem books_start (interval : Duration) (t₀ : Instant) :
    Books interval t₀ (.start interval t₀) where
  interval_eq := rfl
  lastAck_eq := rfl
  tokens_eq := rfl
  open_iff _ _ := ⟨nofun, fun h ↦ absurd h not_open_nil⟩
  lastRtt_eq := rfl

theorem Books.mem_tokens_iff (h : Books interval t₀ d) {token : Nat} :
    token ∈ tokens d.entries ↔ ¬ (token = 0 ∨ d.monitor.lastToken < token) := by
  rw [h.tokens_eq, List.mem_range'_1]
  omega

theorem Books.lastToken_eq (h : Books interval t₀ d) :
    d.monitor.lastToken = (issued d.entries).length := by
  have hlength := congrArg List.length h.tokens_eq
  rw [List.length_range', tokens, List.length_map] at hlength
  exact hlength.symm

theorem Books.staleAt_eq (h : Books interval t₀ d) :
    d.monitor.staleAt = heard t₀ d.entries + 2 * interval := by
  rw [Monitor.staleAt, h.interval_eq, h.lastAck_eq, Nat.mul_comm]

theorem Books.poll (h : Books interval t₀ d) (now : Instant) :
    Books interval t₀ (d.call (.poll now)) := by
  have hpolls := d.monitor.polls now
  rw [call]
  generalize d.monitor.poll now = polled at hpolls ⊢
  obtain ⟨due, monitor⟩ := polled
  cases hpolls with
  | stale | waits =>
    refine ⟨h.interval_eq, h.lastAck_eq, h.tokens_eq, fun token sent ↦ ?_, h.lastRtt_eq⟩
    simp [open_cons, h.open_iff]
  | beats =>
    refine ⟨h.interval_eq, h.lastAck_eq, ?_, fun token sent ↦ ?_, h.lastRtt_eq⟩
    · simp [tokens, issued, List.range'_concat, ← h.tokens_eq, Nat.add_comm]
    · simp [open_cons, eq_comm, and_comm]

theorem Books.ack (h : Books interval t₀ d) (token : Nat) (now : Instant) :
    Books interval t₀ (d.call (.ack token now)) := by
  have hacks := d.monitor.acks token now
  rw [call]
  generalize d.monitor.onAck token now = acked at hacks ⊢
  obtain ⟨rtt, monitor⟩ := acked
  cases hacks with
  | ignores hunissued =>
    have hunissued' : token ∉ tokens d.entries := mt h.mem_tokens_iff.mp (not_not.mpr hunissued)
    refine ⟨h.interval_eq, ?_, h.tokens_eq, fun other sent ↦ ?_, h.lastRtt_eq⟩
    · rw [h.lastAck_eq, heard, heard, answered, if_neg hunissued']
    · -- The open heartbeat is another one, since it has been issued.
      rw [h.open_iff, open_cons]
      refine ⟨fun hopen ↦ .inr ⟨hopen, nofun, ?_⟩, fun hopen ↦ (hopen.resolve_left nofun).1⟩
      rintro _ _ ⟨rfl, -⟩
      exact hunissued' hopen.mem_tokens
  | @measures sent hissued hopen =>
    have hissued' : token ∈ tokens d.entries := h.mem_tokens_iff.mpr hissued
    refine ⟨h.interval_eq, ?_, h.tokens_eq, fun other time ↦ ?_, rfl⟩
    · rw [heard, answered, if_pos hissued', List.headD_cons]
    · refine ⟨nofun, fun hother ↦ ?_⟩
      obtain ⟨hother, -, hne⟩ := (open_cons.mp hother).resolve_left nofun
      rw [← h.open_iff, hopen] at hother
      obtain ⟨rfl, rfl⟩ := Prod.mk.inj (Option.some.inj hother)
      exact absurd rfl (hne _ _)
  | revives hissued hopen =>
    have hissued' : token ∈ tokens d.entries := h.mem_tokens_iff.mpr hissued
    refine ⟨h.interval_eq, ?_, h.tokens_eq, fun other sent ↦ ?_, h.lastRtt_eq⟩
    · rw [heard, answered, if_pos hissued', List.headD_cons]
    · rw [h.open_iff, open_cons]
      refine ⟨fun hother ↦ .inr ⟨hother, nofun, ?_⟩, fun hother ↦ (hother.resolve_left nofun).1⟩
      rintro _ _ ⟨rfl, -⟩
      exact hopen sent ((h.open_iff _ _).mpr hother)

theorem Books.call (h : Books interval t₀ d) (c : Call) : Books interval t₀ (d.call c) := by
  cases c with
  | poll now => exact h.poll now
  | ack token now => exact h.ack token now

theorem Books.calls (h : Books interval t₀ d) (cs : List Call) :
    Books interval t₀ (d.calls cs) := by
  induction cs generalizing d with
  | nil => exact h
  | cons c cs ih => exact ih (h.call c)

/-! ### Order -/

theorem times_calls (d : Diary) (cs : List Call) :
    (d.calls cs).entries.map Entry.time =
      (cs.map Call.time).reverse ++ d.entries.map Entry.time := by
  induction cs generalizing d with
  | nil => rfl
  | cons c cs ih => cases c <;> simp [ih, call, Entry.time, Call.time]

/-- Calls in the order of time leave entries in the order of time. -/
theorem inOrder_calls (h : (t₀ :: cs.map Call.time).IsChain (· ≤ ·)) :
    InOrder t₀ ((start interval t₀).calls cs).entries := by
  have htimes := (start interval t₀).times_calls cs
  rw [start, List.map_nil, List.append_nil] at htimes
  rw [InOrder, start, htimes, ← List.reverse_cons, List.pairwise_reverse]
  exact List.isChain_iff_pairwise.mp h

end Diary

end DeskLink.Heartbeat
