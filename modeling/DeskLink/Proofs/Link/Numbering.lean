import DeskLink.Proofs.Envelope.Size
import DeskLink.Proofs.Link
import DeskLink.Proofs.Transport.Writing

/-!
# Every attempt has its number

A link takes a number for a message before it knows whether the message can go out. This file
follows a link through any attempts to send, of which some succeed, some are refused, some break off
in the middle of the frame or after it and some are given up, and through the naming of a session in
between.

What carries the numbering is one fact about the counter: after `n` attempts, whatever became of
them, it stands `n` further than before, and at the top if that is beyond it
(`outbound_performAll`). So the place of an attempt decides its number, no number is taken twice,
and an attempt beyond the top is refused before anything is written.

A frame that went out whole carries that number, the version of the link and the session named
last. It is read back as that, unless its message is a verdict that contradicts itself: that one is
written, and no reader takes it.
-/

namespace DeskLink

private theorem Sequence.Counter.toNat_of_next? {c c' : Counter} {seq : UInt32}
    (h : c.next? = some (seq, c')) : seq.toNat = c.last.toNat + 1 ∧ c' = ⟨seq⟩ := by
  unfold next? at h
  split at h
  · rename_i hroom
    obtain ⟨rfl, rfl⟩ := Prod.mk.inj (Option.some.inj h)
    refine ⟨?_, rfl⟩
    rw [UInt32.toNat_add, UInt32.toNat_one]
    simp only [top] at hroom
    omega
  · exact absurd h (by simp)

private theorem Sequence.Counter.next?_eq_none {c : Counter} :
    c.next? = none ↔ c.last.toNat = top := by
  have hle := c.toNat_last_le
  unfold next?
  split
  · simp only [reduceCtorEq, false_iff]
    omega
  · simp only [true_iff]
    omega

namespace Link

open DeskLink.Frame.Transmission (Answer)

/-! ## Attempts -/

/-- An attempt to send a message. -/
structure Attempt where
  message : Message
  /-- The number that was taken for it; none when the numbers are used up. -/
  number : Option UInt32
  /-- The bytes that went out. -/
  written : Bytes
  /-- What came of it; nothing when it was given up. -/
  result : Option (Except Failure UInt32)

/-- An attempt to send a message while the stream gives these answers. -/
def send (l : Link) (m : Message) (answers : List Answer) : Attempt × Link :=
  let number := l.outbound.next?.map (·.1)
  match l.prepare m with
  | (.error why, l) => (⟨m, number, [], some (.error why)⟩, l)
  | (.ok (seq, t), l) =>
    let (written, ending) := t.transmit answers
    match ending with
    | .finished => (⟨m, number, written, some (.ok seq)⟩, l.sent t.size)
    | .failed why => (⟨m, number, written, some (.error (.ofTransport why))⟩, l)
    | .abandoned => (⟨m, number, written, none⟩, l)

/-- What is done with the sending side of a link. -/
inductive Act where
  | send (m : Message) (answers : List Answer)
  | bind (id : SessionId)

/-- The session that is named. -/
def Act.session? : Act → Option SessionId
  | .send .. => none
  | .bind id => some id

/-- The attempt that this is, if it is one, and the link after it. -/
def perform (l : Link) : Act → List Attempt × Link
  | .send m answers =>
    let (attempt, l) := l.send m answers
    ([attempt], l)
  | .bind id => ([], l.bind id)

/-- The attempts among these, and the link after them. -/
def performAll (l : Link) : List Act → List Attempt × Link
  | [] => ([], l)
  | act :: acts =>
    let (attempts, l) := l.perform act
    let (later, l) := l.performAll acts
    (attempts ++ later, l)

variable {l l' : Link} {m : Message} {attempt : Attempt}

/-- What can come of an attempt. -/
inductive Attempts (l : Link) (m : Message) : Attempt → Link → Prop where
  | exhausted (htop : l.outbound.last.toNat = Sequence.top) : Attempts l m
      ⟨m, none, [], some (.error (.lost "outbound sequence space exhausted"))⟩ l
  /-- The message cannot be written, or its frame is above the limit. -/
  | refused {seq : UInt32} {why : Failure} (hseq : seq.toNat = l.outbound.last.toNat + 1) :
      Attempts l m ⟨m, some seq, [], some (.error why)⟩ { l with outbound := ⟨seq⟩ }
  /-- A frame was begun, and it is finished if its number is returned. -/
  | begun {seq : UInt32} {body written : Bytes} {result : Option (Except Failure UInt32)}
      {count : Nat} (hseq : seq.toNat = l.outbound.last.toNat + 1)
      (hbody : (l.envelope seq m).encode = .ok body) (hpart : written <+: Frame.wrap body)
      (hresult : ∀ n, result = some (.ok n) → n = seq ∧ written = Frame.wrap body) :
      Attempts l m ⟨m, some seq, written, result⟩
        { l with outbound := ⟨seq⟩, bytesSent := count }

theorem attempts (l : Link) (m : Message) (answers : List Answer) :
    l.Attempts m (l.send m answers).1 (l.send m answers).2 := by
  cases hnext : l.outbound.next? with
  | none =>
    simp only [send, prepare, hnext]
    exact .exhausted (Sequence.Counter.next?_eq_none.mp hnext)
  | some next =>
    obtain ⟨seq, outbound⟩ := next
    obtain ⟨hseq, rfl⟩ := Sequence.Counter.toNat_of_next? hnext
    cases hframe : l.frameOf seq m with
    | error why =>
      simp only [send, prepare, hnext, hframe, Except.map]
      exact .refused hseq
    | ok t =>
      obtain ⟨body, hbody, -, ht⟩ := frameOf_eq_ok.mp hframe
      have hrest : t.rest = Frame.wrap body := congrArg (·.rest) ht
      have hpart := t.transmit_isPrefix answers
      rw [hrest] at hpart
      simp only [send, prepare, hnext, hframe, Except.map]
      split
      · rename_i hfinished
        have hdelivers := (Frame.Transmission.delivers_of_finished hfinished).eq_rest
        refine .begun hseq hbody hpart ?_
        rintro n ⟨⟩
        exact ⟨rfl, hdelivers.trans hrest⟩
      · exact .begun hseq hbody hpart nofun
      · exact .begun hseq hbody hpart nofun

/-! ## What attempts leave behind -/

/-- The link has gone on from the first to the second by so many attempts. -/
structure Goes (l l' : Link) (attempts : Nat) : Prop where
  version_eq : l'.version = l.version
  last_eq : l'.outbound.last.toNat = min (l.outbound.last.toNat + attempts) Sequence.top

theorem Goes.refl (l : Link) : l.Goes l 0 :=
  ⟨rfl, (Nat.min_eq_left l.outbound.toNat_last_le).symm⟩

theorem Goes.trans {l₁ l₂ l₃ : Link} {n k : Nat} (h : l₁.Goes l₂ n) (h' : l₂.Goes l₃ k) :
    l₁.Goes l₃ (n + k) where
  version_eq := h'.version_eq.trans h.version_eq
  last_eq := by
    rw [h'.last_eq, h.last_eq]
    omega

/-- An attempt takes the next number, if there is one, and leaves the session named. -/
theorem Attempts.goes (h : l.Attempts m attempt l') : l.Goes l' 1 ∧ l'.binding = l.binding ∧
    ∀ n, attempt.number = some n → n.toNat = l'.outbound.last.toNat := by
  have hle := l.outbound.toNat_last_le
  cases h with
  | exhausted htop => exact ⟨⟨rfl, by omega⟩, rfl, nofun⟩
  | @refused seq _ hseq | @begun seq _ _ _ _ hseq =>
    have hseqle : seq.toNat ≤ Sequence.top := Sequence.Counter.toNat_last_le ⟨seq⟩
    refine ⟨⟨rfl, by simp only; omega⟩, rfl, ?_⟩
    rintro n ⟨⟩
    rfl

/-- Attempts, whatever became of them, move the counter on by as many numbers, and the session is
the one named last. -/
theorem performAll_goes (l : Link) (acts : List Act) :
    l.Goes (l.performAll acts).2 (l.performAll acts).1.length ∧
    (l.performAll acts).2.binding = (acts.filterMap Act.session?).getLast?.or l.binding ∧
    ∀ a ∈ (l.performAll acts).1, ∀ n, a.number = some n →
      n.toNat ≤ (l.performAll acts).2.outbound.last.toNat := by
  induction acts generalizing l with
  | nil => exact ⟨.refl l, rfl, List.forall_mem_nil _⟩
  | cons act acts ih =>
    cases act with
    | bind id =>
      obtain ⟨hgoes, hbinding, hnumbers⟩ := ih (l.bind id)
      refine ⟨⟨hgoes.version_eq, hgoes.last_eq⟩, hbinding.trans ?_, hnumbers⟩
      have hnamed : (Act.bind id :: acts).filterMap Act.session? =
          id :: acts.filterMap Act.session? := rfl
      rw [bind, Option.or_some, hnamed, List.getLast?_cons, Option.some_or]
    | send m answers =>
      obtain ⟨hgoes, hbinding, hnumber⟩ := (l.attempts m answers).goes
      obtain ⟨hgoes', hbinding', hnumbers⟩ := ih (l.send m answers).2
      have hstep : l.performAll (.send m answers :: acts) =
          ((l.send m answers).1 :: ((l.send m answers).2.performAll acts).1,
            ((l.send m answers).2.performAll acts).2) := rfl
      rw [hstep]
      refine ⟨?_, ?_, List.forall_mem_cons.mpr ⟨fun n hn ↦ ?_, hnumbers⟩⟩
      · rw [List.length_cons, Nat.add_comm]
        exact hgoes.trans hgoes'
      · rw [hbinding', hbinding]
        rfl
      · -- The number of this attempt is where the counter stood after it.
        have hlast := hgoes'.last_eq
        have hle := (l.send m answers).2.outbound.toNat_last_le
        rw [hnumber n hn]
        dsimp only
        omega

/-! ## Whole frames -/

/-- The beginning of a frame that is itself a frame is the whole. -/
theorem eq_of_wrap_isPrefix {body body' : Bytes} (hshort : Frame.Short body')
    (h : Frame.wrap body <+: Frame.wrap body') : body = body' := by
  have hlength := h.length_le
  rw [Frame.length_wrap, Frame.length_wrap] at hlength
  have hshort' : Frame.Short body := Nat.lt_of_le_of_lt (by omega) hshort
  obtain ⟨rest, hrest⟩ := h
  rw [← List.append_nil (Frame.wrap body')] at hrest
  exact (Frame.wrap_append_inj hshort' hshort hrest).1

theorem Attempts.whole (h : l.Attempts m attempt l') {body : Bytes}
    (hwritten : attempt.written = Frame.wrap body) : ∃ seq, attempt.number = some seq ∧
      Envelope.decode body = if m.Contradictory then .error (.malformed .verdict)
        else .ok (l.envelope seq m) := by
  cases h with
  | exhausted | refused =>
    have hlength := congrArg List.length hwritten
    rw [Frame.length_wrap, Frame.lengthSize] at hlength
    simp only [List.length_nil] at hlength
    omega
  | @begun seq body' _ _ _ _ hbody hpart =>
    dsimp only at hwritten
    rw [hwritten] at hpart
    obtain rfl := eq_of_wrap_isPrefix (Envelope.short_of_encode hbody) hpart
    have hread := Envelope.decode_of_encode hbody []
    rw [List.append_nil] at hread
    exact ⟨seq, rfl, hread⟩

theorem Attempts.returned (h : l.Attempts m attempt l') {seq : UInt32}
    (hresult : attempt.result = some (.ok seq)) :
    attempt.number = some seq ∧ ∃ body, attempt.written = Frame.wrap body := by
  cases h with
  | exhausted | refused => nomatch hresult
  | begun _ _ _ hreturned =>
    obtain ⟨rfl, hwritten⟩ := hreturned seq hresult
    exact ⟨rfl, _, hwritten⟩

theorem Attempts.next (h : l.Attempts m attempt l') {seq : UInt32}
    (hseq : attempt.number = some seq) : seq.toNat = l.outbound.last.toNat + 1 := by
  cases h with
  | exhausted => nomatch hseq
  | refused hnext | begun hnext =>
    obtain rfl := Option.some.inj hseq
    exact hnext

theorem Attempts.unnumbered (h : l.Attempts m attempt l') (hnone : attempt.number = none) :
    l.outbound.last.toNat = Sequence.top ∧ attempt.written = [] ∧ l' = l ∧
      attempt.result = some (.error (.lost "outbound sequence space exhausted")) := by
  cases h with
  | exhausted htop => exact ⟨htop, rfl, rfl, rfl⟩
  | refused | begun => nomatch hnone

private theorem Attempts.number_eq_none (h : l.Attempts m attempt l')
    (htop : l.outbound.last.toNat = Sequence.top) : attempt.number = none := by
  cases hnumber : attempt.number with
  | none => rfl
  | some seq =>
    have hnext := h.next hnumber
    have hle : seq.toNat ≤ Sequence.top := Sequence.Counter.toNat_last_le ⟨seq⟩
    omega

/-- **Every attempt has its number.** After any attempts to send, of whatever outcome, and any
naming of sessions, the next attempt has the number that is as far beyond the last one given out as
its place says, so above every number that an attempt has had; if that is beyond the top, it fails,
writes nothing and leaves the link as it was. What it writes, if that is a whole frame, is read as
an envelope with this number, with the version of the link and with the session named last, unless
the message is a verdict that contradicts itself, which is not read; and if the attempt succeeds, it
has written a whole frame and returns this number. -/
theorem numbering (l : Link) (before : List Act) (m : Message) (answers : List Answer) :
    let earlier := (l.performAll before).1
    let now := (l.performAll before).2
    let attempt := (now.send m answers).1
    (∀ body, attempt.written = Frame.wrap body → ∃ seq, attempt.number = some seq ∧
      Envelope.decode body = if m.Contradictory then .error (.malformed .verdict)
        else .ok ⟨l.version, (before.filterMap Act.session?).getLast?.or l.binding, seq, m⟩) ∧
    (∀ seq, attempt.result = some (.ok seq) →
      attempt.number = some seq ∧ ∃ body, attempt.written = Frame.wrap body) ∧
    (∀ seq, attempt.number = some seq →
      seq.toNat = l.outbound.last.toNat + earlier.length + 1 ∧
        ∀ a ∈ earlier, ∀ n, a.number = some n → n < seq) ∧
    (attempt.number = none ↔ Sequence.top ≤ l.outbound.last.toNat + earlier.length) ∧
    (attempt.number = none → attempt.written = [] ∧ (now.send m answers).2 = now ∧
      attempt.result = some (.error (.lost "outbound sequence space exhausted"))) := by
  intro earlier now attempt
  obtain ⟨hgoes, hbinding, hnumbers⟩ := l.performAll_goes before
  have hattempts : now.Attempts m attempt (now.send m answers).2 := now.attempts m answers
  have hversion : now.version = l.version := hgoes.version_eq
  have hlast : now.outbound.last.toNat = min (l.outbound.last.toNat + earlier.length)
    Sequence.top := hgoes.last_eq
  refine ⟨fun body hwritten ↦ ?_, fun seq ↦ hattempts.returned, fun seq hseq ↦ ⟨?_, ?_⟩,
    ⟨fun hnone ↦ ?_, fun htop ↦ hattempts.number_eq_none ?_⟩, fun hnone ↦ ?_⟩
  · obtain ⟨seq, hseq, hread⟩ := hattempts.whole hwritten
    rw [envelope, hversion, hbinding] at hread
    exact ⟨seq, hseq, hread⟩
  · -- There was a number left, so the counter was not at the top.
    have hnext := hattempts.next hseq
    have hle : seq.toNat ≤ Sequence.top := Sequence.Counter.toNat_last_le ⟨seq⟩
    omega
  · intro a ha n hn
    have hnext := hattempts.next hseq
    have hold : n.toNat ≤ now.outbound.last.toNat := hnumbers a ha n hn
    rw [UInt32.lt_iff_toNat_lt]
    omega
  · have htop := (hattempts.unnumbered hnone).1
    omega
  · omega
  · exact (hattempts.unnumbered hnone).2

/-- A link that has three numbers left is named a session and uses up two: a message above the limit
is refused, and of the next one the stream takes four bytes and breaks. The last number is that of a
heartbeat, and then there is none. -/
theorem numbering_to_the_top :
    let id : SessionId := ⟨⟨List.replicate 16 7, rfl⟩⟩
    let l : Link := { Link.new 1 64 with outbound := ⟨4294967292⟩ }
    let taken : List Answer := [⟨.accepts 4, .notReady⟩, ⟨.accepts 99, .notReady⟩,
      ⟨.notReady, .finished⟩]
    let before : List Act := [.send (.auth (.response (List.replicate 60 0))) taken, .bind id,
      .send (.heartbeat 1) [⟨.accepts 4, .notReady⟩, ⟨.failed "broken pipe", .notReady⟩]]
    let now := (l.performAll before).2
    let last := now.send (.heartbeat 2) taken
    last.1.result = some (.ok 4294967295) ∧
      (∃ body, last.1.written = Frame.wrap body ∧
        Envelope.decode body = .ok ⟨1, some id, 4294967295, .heartbeat 2⟩) ∧
      (last.2.send (.heartbeat 3) taken).1.written = [] := by
  intro id l taken before now last
  have hresult : last.1.result = some (.ok 4294967295) := by decide +kernel
  obtain ⟨hwhole, hreturned, -⟩ := numbering l before (.heartbeat 2) taken
  obtain ⟨hnumber, body, hwritten⟩ := hreturned _ hresult
  obtain ⟨seq, hseq, hread⟩ := hwhole body hwritten
  obtain rfl := Option.some.inj (hnumber.symm.trans hseq)
  obtain ⟨-, -, -, hnone, hexhausted⟩ :=
    numbering l (before ++ [.send (.heartbeat 2) taken]) (.heartbeat 3) taken
  exact ⟨hresult, ⟨body, hwritten, hread⟩, (hexhausted (hnone.mpr (by decide +kernel))).1⟩

/-- A verdict that accepts without naming a session is sent, but what goes out is not read. -/
theorem unread_verdict :
    let attempt := ((Link.new 1 4096).send (.authResult ⟨true, none⟩)
      [⟨.accepts 13, .notReady⟩, ⟨.notReady, .finished⟩]).1
    attempt.result = some (.ok 1) ∧
      ∃ body, attempt.written = Frame.wrap body ∧ ∀ e, Envelope.decode body ≠ .ok e := by
  intro attempt
  refine ⟨by decide +kernel, [1, 3, 0, 0, 0, 0, 1, 1, 0], by decide +kernel, fun e he ↦ ?_⟩
  have hrefused : Envelope.decode [1, 3, 0, 0, 0, 0, 1, 1, 0] = .error (.malformed .verdict) := by
    decide +kernel
  nomatch hrefused.symm.trans he

end Link

end DeskLink
