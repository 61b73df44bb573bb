import DeskLink.Proofs.Heartbeat.Diary

/-!
# Round trips are measured against the right heartbeat

An acknowledgement measures a round trip exactly if it is one of the open heartbeat: the latest one,
not yet acknowledged. The round trip is then the time since that heartbeat went out. Late, repeated
and invented acknowledgements measure nothing, and those of a token that was never issued leave the
monitor as it was.

A token is measured at most once since an acknowledgement that measures it leaves no heartbeat open,
and a token is never issued again (`Sparse`).
-/

namespace DeskLink.Heartbeat

/-- Whether the entry is an acknowledgement of this token that measured a round trip. -/
def Entry.measures (token : Nat) : Entry → Bool
  | acked other _ rtt => other == token && rtt.isSome
  | polled .. => false

namespace Diary

variable {interval : Duration} {t₀ : Instant} {d : Diary} {token : Nat} {now : Instant}

/-- An acknowledgement measures the time since the open heartbeat, if it is one of that. -/
theorem Books.onAck_fst_eq_some (h : Books interval t₀ d) {rtt : Duration} :
    (d.monitor.onAck token now).1 = some rtt ↔
      ∃ sent, Open token sent d.entries ∧ rtt = now - sent := by
  have hacks := d.monitor.acks token now
  generalize d.monitor.onAck token now = acked at hacks ⊢
  obtain ⟨measured, monitor⟩ := acked
  cases hacks with
  | ignores hunissued =>
    refine ⟨nofun, fun ⟨sent, hopen, _⟩ ↦ ?_⟩
    exact absurd hopen.mem_tokens (mt h.mem_tokens_iff.mp (not_not.mpr hunissued))
  | @measures sent _ hopen =>
    constructor
    · rintro ⟨⟩
      exact ⟨sent, (h.open_iff _ _).mp hopen, rfl⟩
    · rintro ⟨other, hother, rfl⟩
      rw [← h.open_iff, hopen] at hother
      obtain ⟨-, rfl⟩ := Prod.mk.inj (Option.some.inj hother)
      rfl
  | revives _ hopen =>
    exact ⟨nofun, fun ⟨sent, hsent, _⟩ ↦ absurd ((h.open_iff _ _).mpr hsent) (hopen sent)⟩

/-- An acknowledgement of a token that was never issued changes nothing. -/
theorem Books.onAck_of_unissued (h : Books interval t₀ d) (htoken : token ∉ tokens d.entries) :
    d.monitor.onAck token now = (none, d.monitor) := by
  have hacks := d.monitor.acks token now
  generalize d.monitor.onAck token now = acked at hacks ⊢
  obtain ⟨rtt, monitor⟩ := acked
  cases hacks with
  | ignores => rfl
  | measures hissued | revives hissued => exact absurd (h.mem_tokens_iff.mpr hissued) htoken

/-! ## Once at most -/

/-- No token has been measured twice, and one that is open or was never issued has not been measured
at all. -/
structure Sparse (d : Diary) : Prop where
  once : ∀ token, d.entries.countP (Entry.measures token) ≤ 1
  of_open : ∀ token sent, Open token sent d.entries →
    d.entries.countP (Entry.measures token) = 0
  of_unissued : ∀ token, token ∉ tokens d.entries → d.entries.countP (Entry.measures token) = 0

private theorem sparse_start (interval : Duration) (t₀ : Instant) : Sparse (.start interval t₀) :=
  ⟨fun _ ↦ Nat.zero_le _, fun _ _ _ ↦ rfl, fun _ _ ↦ rfl⟩

theorem Sparse.poll (h : Sparse d) (hbooks : Books interval t₀ d) (now : Instant) :
    Sparse (d.call (.poll now)) := by
  have hpolls := d.monitor.polls now
  rw [call]
  generalize d.monitor.poll now = polled at hpolls ⊢
  obtain ⟨due, monitor⟩ := polled
  have hcount : ∀ token, (Entry.polled now due :: d.entries).countP (Entry.measures token) =
      d.entries.countP (Entry.measures token) := fun _ ↦
    List.countP_cons_of_neg (by simp [Entry.measures])
  refine ⟨fun token ↦ hcount token ▸ h.once token, fun token sent hopen ↦ ?_,
    fun token htoken ↦ (hcount token).trans (h.of_unissued token fun hmem ↦ htoken ?_)⟩
  · rw [hcount]
    rcases open_cons.mp hopen with hbeat | ⟨hopen, -⟩
    · -- The token is new.
      obtain ⟨rfl, rfl⟩ := Entry.polled.inj hbeat
      cases hpolls
      refine h.of_unissued _ ?_
      rw [hbooks.tokens_eq, List.mem_range'_1]
      lia
    · exact h.of_open token sent hopen
  · exact tokens_append [.polled now due] d.entries ▸ List.mem_append_left _ hmem

theorem Sparse.ack (h : Sparse d) (hbooks : Books interval t₀ d) (token : Nat) (now : Instant) :
    Sparse (d.call (.ack token now)) := by
  have hrtt : ∀ rtt, (d.monitor.onAck token now).1 = some rtt ↔
      ∃ sent, Open token sent d.entries ∧ rtt = now - sent := fun rtt ↦ hbooks.onAck_fst_eq_some
  rw [call]
  generalize d.monitor.onAck token now = acked at hrtt ⊢
  obtain ⟨rtt, monitor⟩ := acked
  have hstill : ∀ other sent, Open other sent (.acked token now rtt :: d.entries) →
      Open other sent d.entries ∧ other ≠ token := by
    intro other sent hopen
    obtain ⟨hopen, -, hne⟩ := (open_cons.mp hopen).resolve_left (by simp)
    exact ⟨hopen, fun heq ↦ hne now rtt (heq ▸ rfl)⟩
  cases rtt with
  | none =>
    have hcount : ∀ other, (Entry.acked token now none :: d.entries).countP
        (Entry.measures other) = d.entries.countP (Entry.measures other) := fun _ ↦
      List.countP_cons_of_neg (by simp [Entry.measures])
    exact ⟨fun other ↦ hcount other ▸ h.once other,
      fun other sent hopen ↦ (hcount other).trans (h.of_open other sent (hstill _ _ hopen).1),
      fun other hother ↦ (hcount other).trans (h.of_unissued other hother)⟩
  | some rtt =>
    obtain ⟨sent, hopen, -⟩ := (hrtt rtt).mp rfl
    have hcount : ∀ other, (Entry.acked token now (some rtt) :: d.entries).countP
        (Entry.measures other) =
          d.entries.countP (Entry.measures other) + if token = other then 1 else 0 := by
      simp [List.countP_cons, Entry.measures]
    refine ⟨fun other ↦ ?_, fun other time hother ↦ ?_, fun other hother ↦ ?_⟩
    · rw [hcount]
      split
      · rename_i heq
        exact Nat.le_of_eq (by rw [← heq, h.of_open token sent hopen])
      · exact h.once other
    · obtain ⟨hother, hne⟩ := hstill other time hother
      rw [hcount, if_neg hne.symm, h.of_open other time hother]
    · have hne : token ≠ other := fun heq ↦ hother (heq ▸ hopen.mem_tokens)
      rw [hcount, if_neg hne, h.of_unissued other hother]

theorem Sparse.calls (h : Sparse d) (hbooks : Books interval t₀ d) (cs : List Call) :
    Sparse (d.calls cs) := by
  induction cs generalizing d with
  | nil => exact h
  | cons c cs ih =>
    cases c with
    | poll now => exact ih (h.poll hbooks now) (hbooks.poll now)
    | ack token now => exact ih (h.ack hbooks token now) (hbooks.ack token now)

end Diary

/-! ## Measuring -/

/-- **Round trips are measured against the right heartbeat.** After any calls, an acknowledgement
that comes no earlier than they did measures a round trip exactly if its token is the latest that
was issued and has not been acknowledged since, and then it is the time since that heartbeat went
out. No token is measured twice, the monitor shows the latest of the round trips, and an
acknowledgement of a token that was never issued leaves it as it was. -/
theorem measuring (interval : Duration) (t₀ : Instant) (calls : List Call) :
    let d := (Diary.start interval t₀).calls calls
    (∀ token now rtt, (∀ c ∈ calls, c.time ≤ now) →
      ((d.monitor.onAck token now).1 = some rtt ↔
        ∃ sent, Open token sent d.entries ∧ now = sent + rtt)) ∧
    (∀ token, d.entries.countP (Entry.measures token) ≤ 1) ∧
    d.monitor.lastRtt = (measured d.entries).head? ∧
    ∀ token now, token ∉ tokens d.entries → d.monitor.onAck token now = (none, d.monitor) := by
  intro d
  have hbooks := (Diary.books_start interval t₀).calls calls
  have hsparse := (Diary.sparse_start interval t₀).calls (Diary.books_start interval t₀) calls
  refine ⟨fun token now rtt hnow ↦ ?_, hsparse.once, hbooks.lastRtt_eq,
    fun token now ↦ hbooks.onAck_of_unissued⟩
  rw [hbooks.onAck_fst_eq_some]
  refine exists_congr fun sent ↦ and_congr_right fun hopen ↦ ?_
  have hsent : sent ≤ now := by
    have hmem := hopen.sent_mem
    rw [Diary.times_calls] at hmem
    obtain ⟨c, hc, rfl⟩ := List.mem_map.mp (by simpa [Diary.start] using hmem)
    exact hnow c hc
  lia

/-- An acknowledgement that comes once more, after the second heartbeat has gone out, measures
nothing; the second one's measures five. -/
theorem measuring_repeated :
    let calls := [.poll 15, .ack 1 18, .poll 25, .ack 1 28]
    let d := (Diary.start 10 5).calls calls
    (∀ c ∈ calls, c.time ≤ 30) ∧
    (d.monitor.onAck 1 30).1 = none ∧ (d.monitor.onAck 2 30).1 = some 5 ∧
      d.monitor.onAck 3 30 = (none, d.monitor) := by
  intro calls d
  obtain ⟨hmeasures, -, -, hunissued⟩ := measuring 10 5 calls
  have htimes : ∀ c ∈ calls, c.time ≤ 30 := by decide
  have hopen : Open 2 25 d.entries :=
    ⟨[.acked 1 28 none], [.acked 1 18 (some 3), .polled 15 (.beat 1)], rfl, by simp, by simp⟩
  refine ⟨htimes, Option.eq_none_iff_forall_ne_some.mpr fun rtt hrtt ↦ ?_,
    (hmeasures 2 30 5 htimes).mpr ⟨25, hopen, rfl⟩, hunissued 3 30 (by decide)⟩
  obtain ⟨sent, hsent, -⟩ := (hmeasures 1 30 rtt htimes).mp hrtt
  rcases open_cons.mp hsent with h | ⟨-, -, h⟩
  · nomatch h
  · exact h 28 none rfl

end DeskLink.Heartbeat
