import DeskLink.Link
import DeskLink.Proofs.Checked

/-!
# What a link does

One lemma for each of the two things a link does. A message that is about to be sent has a number
above every number before it, also above those that were used up without anything being sent. What
comes of a receipt is one of seven things, and only one of them hands a message on: that of a whole
frame with an envelope for this session whose number is above every accepted one.
-/

namespace DeskLink

private theorem Sequence.Counter.of_next? {c c' : Counter} {seq : UInt32}
    (h : c.next? = some (seq, c')) : c.last < seq ∧ c' = ⟨seq⟩ := by
  unfold next? at h
  split at h
  · rename_i hroom
    obtain ⟨rfl, rfl⟩ := Prod.mk.inj (Option.some.inj h)
    refine ⟨UInt32.lt_iff_toNat_lt.mpr ?_, rfl⟩
    rw [UInt32.toNat_add, UInt32.toNat_one]
    simp only [top] at hroom
    omega
  · exact absurd h (by simp)

namespace Link

variable {l : Link}

/-! ## Sending -/

/-- What a link can do when it is to send a message. -/
inductive Prepares (l : Link) (m : Message) :
    Except Failure (UInt32 × Frame.Transmission) → Link → Prop where
  /-- The numbers are used up. -/
  | exhausted {why : Failure} : Prepares l m (.error why) l
  /-- The message cannot be written or is above the limit, and its number is lost. -/
  | refused {seq : UInt32} {why : Failure} (hseq : l.outbound.last < seq) :
      Prepares l m (.error why) { l with outbound := ⟨seq⟩ }
  | begun {seq : UInt32} {body : Bytes} {t : Frame.Transmission} (hseq : l.outbound.last < seq)
      (hbody : (l.envelope seq m).encode = .ok body) (ht : t.rest = Frame.wrap body) :
      Prepares l m (.ok (seq, t)) { l with outbound := ⟨seq⟩ }

theorem frameOf_eq_ok {seq : UInt32} {m : Message} {t : Frame.Transmission} :
    l.frameOf seq m = .ok t ↔ ∃ body, (l.envelope seq m).encode = .ok body ∧
      body.length ≤ l.limit ∧ t = ⟨Frame.lengthSize + body.length, Frame.wrap body⟩ := by
  rw [frameOf, bind_eq_ok]
  refine exists_congr fun body ↦ ?_
  rw [mapError_eq_ok, mapError_eq_ok, Frame.Transmission.start]
  split
  · rename_i hlt
    exact and_congr_right fun _ ↦ ⟨nofun, fun h ↦ absurd h.1 (Nat.not_le.mpr hlt)⟩
  · rename_i hle
    rw [Except.ok.injEq]
    exact and_congr_right fun _ ↦ eq_comm.trans (and_iff_right (Nat.le_of_not_lt hle)).symm

theorem prepares (l : Link) (m : Message) : l.Prepares m (l.prepare m).1 (l.prepare m).2 := by
  unfold prepare
  split
  · exact .exhausted
  · rename_i seq outbound hnext
    obtain ⟨hseq, rfl⟩ := Sequence.Counter.of_next? hnext
    cases hframe : l.frameOf seq m with
    | error why => exact .refused hseq
    | ok t =>
      obtain ⟨body, hbody, -, rfl⟩ := frameOf_eq_ok.mp hframe
      exact .begun hseq hbody rfl

/-! ## Receiving -/

/-- What can come of one attempt to go on with a receipt. -/
inductive Receives (l : Link) (reply : ReadReply) : Arrival → Link → Prop where
  | blocked (htake : l.reader.takeFrame = .ok none) : Receives l reply .blocked l
  | read {b : Bytes} (htake : l.reader.takeFrame = .ok none) (hreply : reply = .data b) :
      Receives l reply (.read b.length)
        { l with reader := l.reader.feed b, bytesReceived := l.bytesReceived + b.length }
  /-- The stream failed or ended, or a frame is above the limit. -/
  | lost {why : Failure} : Receives l reply (.failed why) l
  | malformed {why : Failure} {body : Bytes} {reader : Frame.Reader}
      (htake : l.reader.takeFrame = .ok (some (body, reader)))
      (hdecode : ∀ e, Envelope.decode body ≠ .ok e) :
      Receives l reply (.failed why) { l with reader }
  /-- The kind is unassigned. -/
  | unknown {body : Bytes} {reader : Frame.Reader}
      (htake : l.reader.takeFrame = .ok (some (body, reader)))
      (hdecode : ∀ e, Envelope.decode body ≠ .ok e) :
      Receives l reply (.frame none) { l with reader }
  /-- The envelope is for another session, or its number is not above all accepted ones. -/
  | dropped {body : Bytes} {reader : Frame.Reader} {e : Envelope}
      (htake : l.reader.takeFrame = .ok (some (body, reader)))
      (hdecode : Envelope.decode body = .ok e)
      (hdrop : (l.binding.isSome ∧ e.session ≠ l.binding) ∨ ¬ l.inbound.lastSeen < e.seq) :
      Receives l reply (.frame none) { l with reader }
  | passed {body : Bytes} {reader : Frame.Reader} {e : Envelope}
      (htake : l.reader.takeFrame = .ok (some (body, reader)))
      (hdecode : Envelope.decode body = .ok e)
      (hsession : l.binding.isSome → e.session = l.binding) (hseq : l.inbound.lastSeen < e.seq) :
      Receives l reply (.frame (some e.message)) { l with reader, inbound := ⟨e.seq⟩ }

private theorem receives_frame (reply : ReadReply) {body : Bytes} {reader : Frame.Reader}
    (htake : l.reader.takeFrame = .ok (some (body, reader))) :
    l.Receives reply (l.receive reply).1 (l.receive reply).2 := by
  simp only [receive, htake, interpret]
  cases hdecode : Envelope.decode body with
  | error why =>
    have hnone : ∀ e, Envelope.decode body ≠ .ok e := by simp [hdecode]
    cases why with
    | malformed defect => exact .malformed htake hnone
    | unknownKind code => exact .unknown htake hnone
  | ok e =>
    by_cases hforeign : l.binding.isSome ∧ e.session ≠ l.binding
    · simpa only [pass?, if_pos hforeign] using .dropped htake hdecode (.inl hforeign)
    · have hsession : l.binding.isSome → e.session = l.binding :=
        fun hbound ↦ Decidable.not_not.mp fun hne ↦ hforeign ⟨hbound, hne⟩
      by_cases hseq : l.inbound.lastSeen < e.seq
      · simpa only [pass?, if_neg hforeign, Sequence.Guard.accept?, if_pos hseq] using
          .passed htake hdecode hsession hseq
      · simpa only [pass?, if_neg hforeign, Sequence.Guard.accept?, if_neg hseq] using
          .dropped htake hdecode (.inr hseq)

theorem receives (l : Link) (reply : ReadReply) :
    l.Receives reply (l.receive reply).1 (l.receive reply).2 := by
  cases htake : l.reader.takeFrame with
  | error why =>
    simp only [receive, htake]
    exact .lost
  | ok taken =>
    cases taken with
    | some frame => exact receives_frame reply htake
    | none =>
      simp only [receive, htake]
      split
      · exact .blocked htake
      · exact .lost
      · exact .lost
      · exact .read htake rfl

theorem receives_of_receive {reply : ReadReply} {arrival : Arrival} {l' : Link}
    (h : l.receive reply = (arrival, l')) : l.Receives reply arrival l' := by
  have hreceives := l.receives reply
  rwa [h] at hreceives

theorem outgoing_receive {reply : ReadReply} {arrival : Arrival} {l' : Link}
    (h : l.receive reply = (arrival, l')) :
    ∃ reader inbound count,
      l' = { l with reader := reader, inbound := inbound, bytesReceived := count } := by
  have hreceives := receives_of_receive h
  cases hreceives <;> exact ⟨_, _, _, rfl⟩

end Link

end DeskLink
