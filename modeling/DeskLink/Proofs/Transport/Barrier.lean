import DeskLink.Proofs.Transport.Reassembly

/-!
# A length above the limit

Whoever writes into a stream may announce a frame of any length, and may send as much as it likes.
What a reader keeps of it is bounded all the same: it only reads when its buffer holds no frame and
no length above the limit, and then the buffer is shorter than the greatest frame, so that one more
read is all that can come on top (`Reader.length_le_of_takeFrame`).

A length above the limit is a barrier. The frames before it come out first, since they are in front
of it in the buffer. Nothing comes out behind it: a reader that has come to it never moves on, and
whatever stands there is never taken for a frame.

A call may read several times, so between two calls not everything can be seen. `Reader.Comes` lists
the moments of a call.
-/

namespace DeskLink.Frame

/-- The length that the bytes begin with. -/
def announced (b : Bytes) : Nat := Bytes.toNat (b.take lengthSize)

instance (limit : Nat) (b : Bytes) : Decidable (Barred limit b) :=
  inferInstanceAs (Decidable (_ ∧ _))

namespace Reader

variable {r r' : Reader} {replies rest : List ReadReply} {count : Nat}

/-! ## The moments of a call -/

/-- A call that begins with these answers to come is at some moment a call with these. -/
inductive Comes : Reader → List ReadReply → Reader → List ReadReply → Prop where
  | here (r : Reader) (replies : List ReadReply) : Comes r replies r replies
  /-- There was nothing to give out, and the stream has brought some bytes. -/
  | reads {r r' : Reader} {b : Bytes} {replies rest : List ReadReply}
      (hnone : r.takeFrame = .ok none) (hb : b ≠ []) (h : Comes (r.feed b) replies r' rest) :
      Comes r (.data b :: replies) r' rest

theorem Comes.limit_eq (h : r.Comes replies r' rest) : r'.limit = r.limit := by
  induction h with
  | here => rfl
  | reads _ _ _ ih => exact ih

private theorem receive_data {b : Bytes} (hnone : r.takeFrame = .ok none) (hb : b ≠ [])
    (replies : List ReadReply) (count : Nat) :
    r.receive (.data b :: replies) count = (r.feed b).receive replies (count + b.length) := by
  rw [receive_eq_resume hnone, resume]
  exact fun h ↦ hb h

/-- **From each of its moments on, a call does what a call does that begins there.** -/
theorem Comes.receive_eq (h : r.Comes replies r' rest) (count : Nat) :
    ∃ n, r.receive replies count = r'.receive rest n := by
  induction h generalizing count with
  | here => exact ⟨count, rfl⟩
  | reads hnone hb _ ih =>
    obtain ⟨n, hn⟩ := ih (count + _)
    exact ⟨n, (receive_data hnone hb _ count).trans hn⟩

private theorem exists_comes (r : Reader) (replies : List ReadReply) (count : Nat) :
    ∃ r' rest, r.Comes replies r' rest ∧
      (r.receive replies count).2.1.buffered.length ≤ r'.buffered.length := by
  fun_induction receive r replies count with
  | case1 _ r | case3 r | case4 r | case5 r | case6 r => exact ⟨r, _, .here r _, Nat.le_refl _⟩
  | case2 _ r _ body left htake =>
    refine ⟨r, _, .here r _, ?_⟩
    have hfinds := r.finds
    rw [htake] at hfinds
    cases hfinds with
    | frame _ _ hbuffered =>
      rw [hbuffered, List.length_append]
      exact Nat.le_add_left _ _
  | case7 r _ hnone b _ hb ih =>
    obtain ⟨r', rest, hcomes, hle⟩ := ih
    exact ⟨r', rest, .reads hnone hb hcomes, hle⟩

/-! ## How much is kept -/

/-- A reader that is about to read has less than the greatest frame. -/
theorem length_le_of_takeFrame (h : r.takeFrame = .ok none) : r.buffered.length ≤ r.limit + 3 := by
  unfold takeFrame lengthSize at h
  split at h
  · omega
  · simp only at h
    split at h
    · nomatch h
    · split at h
      · omega
      · nomatch h

/-- At every moment of a call, the buffer holds less than the greatest frame and one more read. -/
theorem Comes.length_le (h : r.Comes replies r' rest)
    (hpieces : ∀ reply ∈ replies, reply.bytes.length ≤ readChunk)
    (hbounded : r.buffered.length ≤ r.limit + 3 + readChunk) :
    r'.buffered.length ≤ r.limit + 3 + readChunk := by
  induction h with
  | here => exact hbounded
  | @reads r _ b _ _ hnone _ _ ih =>
    obtain ⟨hpiece, hothers⟩ := List.forall_mem_cons.mp hpieces
    refine ih hothers ?_
    have hle := length_le_of_takeFrame hnone
    have hb : b.length ≤ readChunk := hpiece
    rw [feed, List.length_append]
    dsimp only
    omega

/-! ## The barrier -/

theorem takeFrame_of_barred (h : Barred r.limit r.buffered) :
    r.takeFrame = .error (.tooLarge (announced r.buffered) r.limit) := by
  obtain ⟨hfour, hlt⟩ := h
  rw [takeFrame, if_neg (Nat.not_lt.mpr hfour)]
  exact if_pos hlt

/-- A call that comes to a barrier ends there. -/
theorem receive_of_barred (h : Barred r.limit r.buffered) (replies : List ReadReply)
    (count : Nat) : r.receive replies count
      = (.failed (.tooLarge (announced r.buffered) r.limit), r, replies, count) :=
  receive_of_error (takeFrame_of_barred h) replies count

private theorem barred_of_receive {size limit : Nat}
    (h : (r.receive replies count).1 = .failed (.tooLarge size limit)) :
    Barred r.limit (r.receive replies count).2.1.buffered ∧
      size = announced (r.receive replies count).2.1.buffered ∧ limit = r.limit := by
  fun_induction receive r replies count with
  | case1 _ r _ why htake =>
    obtain rfl : why = .tooLarge size limit := Received.failed.inj h
    have hfinds := r.finds
    rw [htake] at hfinds
    cases hfinds with
    | barred hbarred =>
      obtain ⟨rfl, -⟩ := TransportError.tooLarge.inj
        (Except.error.inj (htake.symm.trans (takeFrame_of_barred hbarred)))
      exact ⟨hbarred, rfl, rfl⟩
  | case2 | case3 | case4 => nomatch h
  | case5 | case6 => nomatch Received.failed.inj h
  | case7 _ _ _ _ _ _ ih => exact ih h

end Reader

/-- Only bodies that are short enough for their length to be written are within a limit that a
length is above. -/
theorem short_of_barred {limit : Nat} {body tail : Bytes} (h : Barred limit tail)
    (hle : body.length ≤ limit) : Short body := by
  have hlt := Bytes.toNat_lt (tail.take lengthSize)
  rw [List.length_take_of_le h.1] at hlt
  exact Nat.lt_trans (Nat.lt_of_le_of_lt hle h.2) hlt

private theorem eq_nil_of_barred {limit : Nat} {bodies : List Bytes} {b more tail : Bytes}
    (hbodies : ∀ body ∈ bodies, body.length ≤ limit ∧ Short body) (hb : Barred limit b)
    (h : b ++ more = stream bodies ++ tail) : bodies = [] := by
  cases bodies with
  | nil => rfl
  | cons body bodies =>
    obtain ⟨hle, hshort⟩ := hbodies body List.mem_cons_self
    rw [stream_cons, List.append_assoc] at h
    have hbarred := hb.append more
    rw [h] at hbarred
    exact absurd ⟨body, _, hle, hshort, rfl⟩ (not_complete_of_barred hbarred)

namespace Reading

/-- The number of new calls among these turns. -/
def calls (turns : List Turn) : Nat :=
  turns.countP fun t ↦ match t with
    | .call => true
    | .goOn => false

variable {limit : Nat} {replies : List ReadReply} {s : Reading} {bodies : List Bytes} {tail : Bytes}

/-! ## What calls keep -/

theorem Faithful.run_of_call {P : Reading → Prop} (h : s.Faithful limit replies) (hs : P s)
    (hcall : ∀ s : Reading, s.Faithful limit replies → P s → P (s.turn .call))
    (turns : List Turn) : P (s.run turns) := by
  induction turns generalizing s with
  | nil => exact hs
  | cons t turns ih =>
    refine ih (h.turn t) ?_
    cases t with
    | call => exact hcall s h hs
    | goOn =>
      by_cases hpending : s.results.getLast? = some .pending
      · exact h.goOn_eq_call hpending ▸ hcall s h hs
      · rwa [Reading.turn, if_neg hpending]

private theorem replies_subset_call (s : Reading) : (s.turn .call).replies ⊆ s.replies := by
  obtain ⟨used, hreplies, -⟩ := s.reader.calls_receive s.replies s.count
  intro reply hreply
  rw [hreplies]
  exact List.mem_append_right used hreply

/-- The buffer is within bounds, and the stream brings no more at a time than is asked for. -/
structure Contained (limit : Nat) (s : Reading) : Prop where
  pieces : ∀ reply ∈ s.replies, reply.bytes.length ≤ readChunk
  bounded : s.reader.buffered.length ≤ limit + 3 + readChunk

theorem Contained.call (h : s.Faithful limit replies) (hs : s.Contained limit) :
    (s.turn .call).Contained limit := by
  obtain ⟨r', rest, hcomes, hle⟩ := s.reader.exists_comes s.replies s.count
  have hmoment := hcomes.length_le hs.pieces (by rw [h.limit_eq]; exact hs.bounded)
  rw [h.limit_eq] at hmoment
  exact ⟨fun reply hreply ↦ hs.pieces reply (s.replies_subset_call hreply),
    Nat.le_trans hle hmoment⟩

/-- A call has failed for a length, and the reader is still there. -/
def Blocked (limit : Nat) (s : Reading) : Prop :=
  ∀ size l, .failed (.tooLarge size l) ∈ s.results →
    Barred limit s.reader.buffered ∧ size = announced s.reader.buffered ∧ l = limit

/-- A call at a barrier fails, and leaves everything else as it was. -/
theorem Faithful.call_of_barred (h : s.Faithful limit replies)
    (hbarred : Barred limit s.reader.buffered) : s.turn .call = { s with
      results := s.results ++ [.failed (.tooLarge (announced s.reader.buffered) limit)] } := by
  rw [Reading.turn, Reader.receive_of_barred (h.limit_eq.symm ▸ hbarred),
    record_eq (List.nil_append s.replies).symm, arriving_nil, List.append_nil, h.limit_eq]

theorem Blocked.call (h : s.Faithful limit replies) (hs : s.Blocked limit) :
    (s.turn .call).Blocked limit := by
  intro size l hmem
  rcases List.mem_append.mp hmem with hold | hnew
  · have hbarred := hs size l hold
    rwa [h.call_of_barred hbarred.1]
  · have hreceive := (List.mem_singleton.mp hnew).symm
    have hbarred := Reader.barred_of_receive hreceive
    rwa [h.limit_eq] at hbarred

/-- A turn that comes to a barrier at one of its moments ends there. -/
theorem Faithful.turn_of_comes (h : s.Faithful limit replies) {r : Reader} {rest : List ReadReply}
    {t : Turn} (hcomes : s.reader.Comes s.replies r rest) (hbarred : Barred limit r.buffered)
    (hgoOn : t = .goOn → s.results.getLast? = some .pending) :
    ∃ n, s.turn t = s.record (.failed (.tooLarge (announced r.buffered) limit), r, rest, n) := by
  have hturn : s.turn t = s.turn .call := by
    cases t with
    | call => rfl
    | goOn => exact h.goOn_eq_call (hgoOn rfl)
  have hlimit : r.limit = limit := hcomes.limit_eq.trans h.limit_eq
  have hbarred' : Barred r.limit r.buffered := by rwa [hlimit]
  obtain ⟨n, hreceive⟩ := hcomes.receive_eq s.count
  rw [Reader.receive_of_barred hbarred', hlimit] at hreceive
  exact ⟨n, hturn.trans (congrArg s.record hreceive)⟩

/-- **A reader that has come to a barrier never moves on.** -/
theorem Faithful.run_of_barred (h : s.Faithful limit replies)
    (hbarred : Barred limit s.reader.buffered) (later : List Turn) : s.run later = { s with
      results := s.results ++ List.replicate (calls later)
        (.failed (.tooLarge (announced s.reader.buffered) limit)) } := by
  induction later generalizing s with
  | nil => simp [Reading.run, calls]
  | cons t later ih =>
    have hnext := h.turn t
    cases t with
    | call =>
      have hcall := h.call_of_barred hbarred
      have hcalls : calls (.call :: later) = calls later + 1 := List.countP_cons_of_pos rfl
      rw [hcall] at hnext
      rw [Reading.run, List.foldl_cons, hcall, ← Reading.run, ih hnext hbarred, hcalls]
      simp [List.replicate_succ]
    | goOn =>
      -- A call that waits has found no barrier.
      have hnotpending : ¬ s.results.getLast? = some .pending :=
        fun hpending ↦ (h.leaves _ hpending).2 hbarred
      have hcalls : calls (.goOn :: later) = calls later := List.countP_cons_of_neg (by simp)
      rw [Reading.run, List.foldl_cons, Reading.turn, if_neg hnotpending, ← Reading.run,
        ih h hbarred, hcalls]

/-! ## What stands before the barrier -/

theorem Faithful.frames_isPrefix_of_barred (h : s.Faithful limit replies)
    (hbytes : arriving replies = stream bodies ++ tail)
    (hbodies : ∀ body ∈ bodies, body.length ≤ limit ∧ Short body) (htail : Barred limit tail) :
    s.frames <+: bodies := by
  have hstream : stream s.frames ++ s.reader.buffered <+: stream bodies ++ tail := by
    rw [← hbytes, ← h.arriving_eq, h.read_eq]
    exact List.prefix_append _ _
  exact prefix_of_stream_prefix h.fitting (fun body hbody ↦ (hbodies body hbody).2)
    (not_complete_of_barred htail) hstream

theorem Faithful.exists_rest_of_barred (h : s.Faithful limit replies)
    (hbytes : arriving replies = stream bodies ++ tail)
    (hbodies : ∀ body ∈ bodies, body.length ≤ limit ∧ Short body) (htail : Barred limit tail) :
    ∃ others, bodies = s.frames ++ others ∧
      s.reader.buffered ++ arriving s.replies = stream others ++ tail := by
  obtain ⟨others, hothers⟩ := h.frames_isPrefix_of_barred hbytes hbodies htail
  refine ⟨others, hothers.symm, ?_⟩
  have hall := h.arriving_eq
  rw [h.read_eq, hbytes, ← hothers, stream_append, List.append_assoc, List.append_assoc] at hall
  exact List.append_cancel_left hall

theorem Faithful.frames_eq_of_barred (h : s.Faithful limit replies)
    (hbytes : arriving replies = stream bodies ++ tail)
    (hbodies : ∀ body ∈ bodies, body.length ≤ limit ∧ Short body) (htail : Barred limit tail)
    (hbarred : Barred limit s.reader.buffered) :
    s.frames = bodies ∧ announced s.reader.buffered = announced tail := by
  obtain ⟨others, hothers, hrest⟩ := h.exists_rest_of_barred hbytes hbodies htail
  have hfit : ∀ body ∈ others, body.length ≤ limit ∧ Short body := fun body hbody ↦
    hbodies body (hothers ▸ List.mem_append_right _ hbody)
  obtain rfl := eq_nil_of_barred hfit hbarred hrest
  refine ⟨(List.append_nil _).symm.trans hothers.symm, ?_⟩
  rw [stream_nil, List.nil_append] at hrest
  rw [announced, announced, ← hrest, List.take_append_of_le_length hbarred.1]

private theorem Faithful.barred_of_length (h : s.Faithful limit replies)
    (hbytes : arriving replies = stream bodies ++ tail)
    (hbodies : ∀ body ∈ bodies, body.length ≤ limit ∧ Short body) (htail : Barred limit tail)
    (hlength : bodies.length + replies.length < s.results.length) :
    Barred limit s.reader.buffered := by
  obtain ⟨others, hothers, hrest⟩ := h.exists_rest_of_barred hbytes hbodies htail
  have hcount : s.frames.length ≤ bodies.length := by
    rw [hothers, List.length_append]
    exact Nat.le_add_right _ _
  rcases h.progress with hopen | ⟨hcomplete, hempty | hbarred⟩
  · omega
  · rw [hempty, arriving_nil, List.append_nil] at hrest
    rw [hrest] at hcomplete ⊢
    cases others with
    | nil => exact htail
    | cons body others =>
      obtain ⟨hle, hshort⟩ := hbodies body (by simp [hothers])
      rw [stream_cons, List.append_assoc] at hcomplete
      exact absurd ⟨body, _, hle, hshort, rfl⟩ hcomplete
  · exact hbarred

/-- **Nothing passes a length above the limit.** Whatever a stream brings, in pieces of the size
that reads ask for, and whichever calls are given up: at every moment of every call the buffer holds
at most the limit, three bytes and one more read. If the stream consists of frames within the limit
and then a length above it, only these frames come out; a call that fails for a length names that
length and the limit, and all of the frames have come out before; and after enough calls this is so.
And at whatever moment of a call, new or going on, such a length is at the front of the buffer, this
call and all later ones fail for it, and neither the buffer nor what the stream has still to bring
is touched again. -/
theorem stops_at_barrier (limit : Nat) (replies : List ReadReply) (turns : List Turn) :
    let s := (start limit replies).run turns
    ((∀ reply ∈ replies, reply.bytes.length ≤ readChunk) → ∀ r rest,
      s.reader.Comes s.replies r rest → r.buffered.length ≤ limit + 3 + readChunk) ∧
    (∀ bodies tail, arriving replies = stream bodies ++ tail →
      (∀ body ∈ bodies, body.length ≤ limit) → Barred limit tail →
      s.frames <+: bodies ∧
      (∀ size l, .failed (.tooLarge size l) ∈ s.results →
        s.frames = bodies ∧ size = announced tail ∧ l = limit) ∧
      (bodies.length + replies.length < s.results.length →
        s.frames = bodies ∧ Barred limit s.reader.buffered)) ∧
    ∀ r rest t later, s.reader.Comes s.replies r rest → Barred limit r.buffered →
      (t = .goOn → s.results.getLast? = some .pending) →
      let s' := (s.turn t).run later
      s'.reader = r ∧ s'.replies = rest ∧ s'.frames = s.frames ∧
        s'.results = s.results ++ List.replicate (calls later + 1)
          (.failed (.tooLarge (announced r.buffered) limit)) := by
  intro s
  have hstart := faithful_start limit replies
  have h : s.Faithful limit replies := hstart.run turns
  refine ⟨fun hpieces r rest hcomes ↦ ?_, fun bodies tail hbytes hle htail ↦ ?_,
    fun r rest t later hcomes hbarred hgoOn ↦ ?_⟩
  · -- What new calls keep, all turns keep: a call that goes on does what a new one does.
    have hcontained : s.Contained limit :=
      hstart.run_of_call ⟨hpieces, Nat.zero_le _⟩ (fun _ h hs ↦ hs.call h) turns
    have hmoment := hcomes.length_le hcontained.pieces
      (by rw [h.limit_eq]; exact hcontained.bounded)
    rwa [h.limit_eq] at hmoment
  · have hbodies : ∀ body ∈ bodies, body.length ≤ limit ∧ Short body := fun body hbody ↦
      ⟨hle body hbody, short_of_barred htail (hle body hbody)⟩
    have hblocked : s.Blocked limit :=
      hstart.run_of_call (fun _ _ hmem ↦ nomatch hmem) (fun _ h hs ↦ hs.call h) turns
    refine ⟨h.frames_isPrefix_of_barred hbytes hbodies htail, fun size l hmem ↦ ?_,
      fun hlength ↦ ?_⟩
    · obtain ⟨hbarred, rfl, rfl⟩ := hblocked size l hmem
      obtain ⟨hframes, hsize⟩ := h.frames_eq_of_barred hbytes hbodies htail hbarred
      exact ⟨hframes, hsize, rfl⟩
    · have hbarred := h.barred_of_length hbytes hbodies htail hlength
      exact ⟨(h.frames_eq_of_barred hbytes hbodies htail hbarred).1, hbarred⟩
  · obtain ⟨n, hturn⟩ := h.turn_of_comes hcomes hbarred hgoOn
    have hrun := (h.turn t).run_of_barred (by rw [hturn]; exact hbarred) later
    rw [hrun, hturn]
    refine ⟨rfl, rfl, ?_, ?_⟩
    · simp [record, frames, Reader.Received.frame?]
    · simp [record, List.replicate_succ]

/-- A good frame, a length above the limit and what looks like another good frame come in one piece.
The first call gives out the frame, and the next three fail. -/
theorem stops_at_barrier_between_frames :
    let replies : List ReadReply := [.data [0, 0, 0, 1, 7, 0, 0, 0, 3, 0, 0, 0, 1, 8], .data [9]]
    let s := (start 2 replies).run [.call]
    let s' := (s.turn .call).run [.call, .call]
    s.frames <+: [[7]] ∧ s.reader.buffered.length ≤ 2 + 3 + readChunk ∧
      s'.frames = s.frames ∧ s'.replies = s.replies ∧
      s'.results = s.results ++ List.replicate 3 (.failed (.tooLarge 3 2)) := by
  intro replies s s'
  have hpieces : ∀ reply ∈ replies, reply.bytes.length ≤ readChunk := by decide
  have hbarred : Barred 2 s.reader.buffered := by decide +kernel
  have hsize : announced s.reader.buffered = 3 := by decide +kernel
  obtain ⟨hbounded, hbefore, hstops⟩ := stops_at_barrier 2 replies [.call]
  have hhere : s.reader.Comes s.replies s.reader s.replies := .here s.reader s.replies
  obtain ⟨-, hreplies, hframes, hresults⟩ := hstops _ _ .call [.call, .call] hhere hbarred nofun
  obtain ⟨hbegins, -, -⟩ := hbefore [[7]] [0, 0, 0, 3, 0, 0, 0, 1, 8, 9] (by decide) (by decide)
    (by decide)
  rw [hsize] at hresults
  exact ⟨hbegins, hbounded hpieces _ _ hhere, hframes, hreplies, hresults⟩

end Reading

end DeskLink.Frame
