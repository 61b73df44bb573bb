import DeskLink.Transport.Frame

/-!
# Frames in a stream

What a writer has sent is frames one after another, and a reader sees a beginning of it. Whatever
that beginning is, a frame that the reader gives out is the first of those the writer sent and not
yet given out: the reader looks at nothing but a length and so many bytes, and both are in what it
has. So the statement is about a reader with any part of the stream, `more` being the part that has
not come; it does not matter why it has not.
-/

namespace DeskLink.Frame

/-- The bytes of frames with these bodies, one after another. -/
def stream (bodies : List Bytes) : Bytes := bodies.flatMap wrap

@[simp] theorem stream_nil : stream [] = [] := rfl

@[simp] theorem stream_cons (body : Bytes) (bodies : List Bytes) :
    stream (body :: bodies) = wrap body ++ stream bodies := rfl

@[simp] theorem stream_append (before after : List Bytes) :
    stream (before ++ after) = stream before ++ stream after := List.flatMap_append

@[simp] theorem length_wrap (body : Bytes) : (wrap body).length = lengthSize + body.length := by
  rw [wrap, List.length_append, Bytes.length_ofNat]

/-- Nothing in the stream means that there is no frame: even a frame without a body has bytes. -/
theorem eq_nil_of_stream_eq_nil {bodies : List Bytes} (h : stream bodies = []) : bodies = [] := by
  cases bodies with
  | nil => rfl
  | cons body bodies =>
    have hlength := congrArg List.length h
    rw [stream_cons, List.length_append, length_wrap, List.length_nil, lengthSize] at hlength
    omega

/-- A body is short enough for its length to be written. -/
def Short (body : Bytes) : Prop := body.length < 1 <<< (8 * lengthSize)

theorem toNat_take_wrap {body : Bytes} (h : Short body) (more : Bytes) :
    Bytes.toNat ((wrap body ++ more).take lengthSize) = body.length := by
  have htake : (wrap body ++ more).take lengthSize = Bytes.ofNat lengthSize body.length := by
    rw [wrap, List.append_assoc]
    exact List.take_left' (Bytes.length_ofNat _ _)
  rw [htake, Bytes.toNat_ofNat]
  exact Nat.mod_eq_of_lt h

/-- **A reader gives out what was sent.** The frame it takes is the first in the stream, and what
it keeps begins the stream of the others. -/
theorem Reader.of_takeFrame {r r' : Reader} {body more : Bytes} {bodies : List Bytes}
    (hshort : ∀ b ∈ bodies, Short b) (hstream : r.buffered ++ more = stream bodies)
    (htake : r.takeFrame = .ok (some (body, r'))) :
    ∃ rest, bodies = body :: rest ∧ r'.buffered ++ more = stream rest := by
  unfold takeFrame at htake
  split at htake
  · nomatch htake
  rename_i hfour
  simp only at htake
  split at htake
  · nomatch htake
  split at htake
  · nomatch htake
  rename_i hwhole
  obtain ⟨rfl, rfl⟩ : _ = body ∧ _ = r' := Prod.mk.inj (Option.some.inj (Except.ok.inj htake))
  cases bodies with
  | nil =>
    have hempty : r.buffered = [] := (List.append_eq_nil_iff.mp hstream).1
    rw [hempty, lengthSize] at hfour
    exact absurd (by decide) hfour
  | cons first rest =>
    -- Both the length and the body are read from what has come, as they would be from all of it.
    have hsize : Bytes.toNat (r.buffered.take lengthSize) = first.length := by
      rw [← toNat_take_wrap (hshort first List.mem_cons_self) (stream rest), ← stream_cons,
        ← hstream, List.take_append_of_le_length (Nat.le_of_not_lt hfour)]
    rw [hsize] at hwhole ⊢
    have hdrop : r.buffered.drop (lengthSize + first.length) ++ more = stream rest := by
      rw [← List.drop_append_of_le_length (Nat.le_of_not_lt hwhole), hstream, stream_cons]
      exact List.drop_left' (length_wrap first)
    refine ⟨rest, ?_, hdrop⟩
    have hbody : (r.buffered.drop lengthSize).take first.length = first := by
      have hle : first.length ≤ (r.buffered.drop lengthSize).length := by
        rw [List.length_drop]
        omega
      calc (r.buffered.drop lengthSize).take first.length
        _ = (r.buffered.drop lengthSize ++ more).take first.length :=
          (List.take_append_of_le_length hle).symm
        _ = (first ++ stream rest).take first.length := by
          rw [← List.drop_append_of_le_length (Nat.le_of_not_lt hfour), hstream, stream_cons, wrap,
            List.append_assoc, List.drop_left' (Bytes.length_ofNat _ _)]
        _ = first := List.take_left' rfl
    rw [hbody]

/-! ## Writing -/

namespace Transmission

/-- What can come of one attempt to go on with a transmission. -/
inductive Advances (t : Transmission) : Progress → Prop where
  | blocked : Advances t .blocked
  | wrote {b rest : Bytes} (hrest : t.rest = b ++ rest) : Advances t (.wrote b { t with rest })
  | finished (hrest : t.rest = []) : Advances t .finished
  | failed {text : String} : Advances t (.failed (.io text))

theorem advances (t : Transmission) (write : WriteReply) (flush : FlushReply) :
    t.Advances (t.advance write flush) := by
  unfold advance
  split
  · split
    · exact .blocked
    · exact .finished ‹_›
    · exact .failed
  · split
    · exact .blocked
    · exact .failed
    · exact .wrote (List.take_append_drop _ _).symm
    · exact .failed

variable {t left : Transmission} {write : WriteReply} {flush : FlushReply} {b : Bytes}

theorem rest_of_wrote (h : t.advance write flush = .wrote b left) : t.rest = b ++ left.rest := by
  have hadvances := t.advances write flush
  rw [h] at hadvances
  cases hadvances with | wrote hrest => exact hrest

theorem rest_of_finished (h : t.advance write flush = .finished) : t.rest = [] := by
  have hadvances := t.advances write flush
  rw [h] at hadvances
  cases hadvances with | finished hrest => exact hrest

theorem exists_accepts_of_wrote (h : t.advance write flush = .wrote b left) :
    ∃ n, write = .accepts n := by
  unfold advance at h
  split at h
  · split at h <;> nomatch h
  · split at h
    · nomatch h
    · nomatch h
    · exact ⟨_, rfl⟩
    · nomatch h

theorem exists_io_of_failed {why : TransportError} (h : t.advance write flush = .failed why) :
    ∃ text, why = .io text := by
  have hadvances := t.advances write flush
  rw [h] at hadvances
  cases hadvances with | failed => exact ⟨_, rfl⟩

end Transmission

end DeskLink.Frame
