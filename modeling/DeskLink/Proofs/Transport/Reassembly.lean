import DeskLink.Proofs.Bytes
import DeskLink.Proofs.Transport.Framing

/-!
# Frames put together again

A stream brings its bytes in pieces of any size. A call for the next frame may wait, fail or come to
the end of the stream, and while it waits it may be given up and made again. None of this has
anything to do with the frames: what has been read is, at any moment, the frames given out so far
and the buffer behind them, and a call that gives out no frame leaves none in the buffer.

Bytes can be seen as frames and a rest without a frame in only one way, so the frames that have been
given out are determined by the bytes, up to those that were not asked for. In particular they are
the ones that a writer has sent.

The answers of the stream are any list here, also with pieces that are longer than a read asks for,
and it may go on after a failure or an end.
-/

namespace DeskLink

def ReadReply.bytes : ReadReply → Bytes
  | .data b => b
  | .notReady | .failed _ => []

namespace Frame

def arriving (replies : List ReadReply) : Bytes := replies.flatMap ReadReply.bytes

@[simp] theorem arriving_nil : arriving [] = [] := rfl

@[simp] theorem arriving_cons (reply : ReadReply) (replies : List ReadReply) :
    arriving (reply :: replies) = reply.bytes ++ arriving replies := rfl

@[simp] theorem arriving_append (before after : List ReadReply) :
    arriving (before ++ after) = arriving before ++ arriving after := List.flatMap_append

/-! ## What bytes begin with -/

/-- The bytes begin with a frame within the limit. -/
def Complete (limit : Nat) (b : Bytes) : Prop :=
  ∃ body more, body.length ≤ limit ∧ Short body ∧ b = wrap body ++ more

/-- The bytes begin with a length above the limit. -/
def Barred (limit : Nat) (b : Bytes) : Prop :=
  lengthSize ≤ b.length ∧ limit < Bytes.toNat (b.take lengthSize)

variable {limit : Nat} {body : Bytes} {bodies : List Bytes}

private theorem not_complete_nil : ¬ Complete limit [] := by
  rintro ⟨body, more, -, -, h⟩
  have hlength := congrArg List.length h
  rw [List.length_append, length_wrap, List.length_nil, lengthSize] at hlength
  omega

theorem not_complete_of_barred {b : Bytes} (h : Barred limit b) : ¬ Complete limit b := by
  rintro ⟨body, more, hle, hshort, rfl⟩
  have hlt := h.2
  rw [toNat_take_wrap hshort] at hlt
  omega

theorem Barred.append {b : Bytes} (h : Barred limit b) (more : Bytes) :
    Barred limit (b ++ more) := by
  refine ⟨?_, ?_⟩
  · rw [List.length_append]
    exact Nat.le_add_right_of_le h.1
  · rw [List.take_append_of_le_length h.1]
    exact h.2

theorem wrap_append_inj {body' more more' : Bytes} (h : Short body) (h' : Short body')
    (heq : wrap body ++ more = wrap body' ++ more') : body = body' ∧ more = more' := by
  have hlength : body.length = body'.length := by
    rw [← toNat_take_wrap h more, heq, toNat_take_wrap h' more']
  obtain ⟨hwrap, hmore⟩ := List.append_inj heq (by rw [length_wrap, length_wrap, hlength])
  refine ⟨?_, hmore⟩
  exact (List.append_inj hwrap (by rw [Bytes.length_ofNat, Bytes.length_ofNat])).2

/-- **Frames are where they are.** Frames in the beginning of a stream are the first of those that
the stream is made of, unless they go on behind these. -/
theorem prefix_of_stream_prefix {bodies' : List Bytes} {rest rest' : Bytes}
    (hbodies : ∀ b ∈ bodies, b.length ≤ limit ∧ Short b) (hbodies' : ∀ b ∈ bodies', Short b)
    (hrest : ¬ Complete limit rest') (h : stream bodies ++ rest <+: stream bodies' ++ rest') :
    bodies <+: bodies' := by
  induction bodies generalizing bodies' with
  | nil => exact List.nil_prefix
  | cons body bodies ih =>
    obtain ⟨⟨hle, hshort⟩, hothers⟩ := List.forall_mem_cons.mp hbodies
    obtain ⟨tail, htail⟩ := h
    rw [stream_cons, List.append_assoc, List.append_assoc] at htail
    cases bodies' with
    | nil => exact absurd ⟨body, _, hle, hshort, htail.symm⟩ hrest
    | cons body' bodies' =>
      obtain ⟨hshort', hothers'⟩ := List.forall_mem_cons.mp hbodies'
      rw [stream_cons, List.append_assoc] at htail
      obtain ⟨rfl, heq⟩ := wrap_append_inj hshort hshort' htail
      rw [List.cons_prefix_cons]
      exact ⟨rfl, ih hothers hothers' ⟨tail, by rw [← heq, List.append_assoc]⟩⟩

theorem not_barred_of_append {b : Bytes} (hbodies : ∀ b ∈ bodies, b.length ≤ limit ∧ Short b)
    (h : b <+: stream bodies) : ¬ Barred limit b := by
  rintro ⟨hfour, hlt⟩
  obtain ⟨more, hmore⟩ := h
  cases bodies with
  | nil =>
    have hempty : b = [] := (List.append_eq_nil_iff.mp hmore).1
    rw [hempty, lengthSize] at hfour
    exact absurd hfour (by decide)
  | cons body bodies =>
    obtain ⟨hle, hshort⟩ := hbodies body List.mem_cons_self
    rw [← List.take_append_of_le_length hfour, hmore, stream_cons, toNat_take_wrap hshort] at hlt
    omega

/-! ## One call -/

namespace Reader

variable {r : Reader}

/-- What a look at the buffer can find. -/
inductive Finds (r : Reader) : Except TransportError (Option (Bytes × Reader)) → Prop where
  | frame {body rest : Bytes} (hle : body.length ≤ r.limit) (hshort : Short body)
      (hbuffered : r.buffered = wrap body ++ rest) :
      Finds r (.ok (some (body, { r with buffered := rest })))
  | barred {size : Nat} (hbarred : Barred r.limit r.buffered) :
      Finds r (.error (.tooLarge size r.limit))
  | nothing (hcomplete : ¬ Complete r.limit r.buffered) (hbarred : ¬ Barred r.limit r.buffered) :
      Finds r (.ok none)

theorem finds (r : Reader) : r.Finds r.takeFrame := by
  unfold takeFrame
  split
  · rename_i hfew
    refine .nothing ?_ fun hbarred ↦ absurd hbarred.1 (Nat.not_le.mpr hfew)
    rintro ⟨body, more, -, -, h⟩
    rw [h, List.length_append, length_wrap] at hfew
    omega
  rename_i hfour
  simp only
  split
  · exact .barred ⟨Nat.not_lt.mp hfour, ‹_›⟩
  rename_i hfits
  have hsize : (r.buffered.take lengthSize).length = lengthSize :=
    List.length_take_of_le (Nat.not_lt.mp hfour)
  split
  · rename_i hpart
    refine .nothing ?_ fun hbarred ↦ absurd hbarred.2 hfits
    rintro ⟨body, more, -, hshort, h⟩
    rw [h, toNat_take_wrap hshort, List.length_append, length_wrap] at hpart
    omega
  · rename_i hwhole
    have hlength : ((r.buffered.drop lengthSize).take
        (Bytes.toNat (r.buffered.take lengthSize))).length
          = Bytes.toNat (r.buffered.take lengthSize) :=
      List.length_take_of_le (by rw [List.length_drop]; omega)
    refine .frame ?_ ?_ ?_
    · rw [hlength]
      omega
    · have hlt := Bytes.toNat_lt (r.buffered.take lengthSize)
      rw [hsize] at hlt
      rwa [Short, hlength]
    -- The length is written again as it stood there, and the body stands behind it.
    · have hfront := Bytes.ofNat_toNat (r.buffered.take lengthSize)
      rw [hsize] at hfront
      rw [wrap, hlength, hfront, List.append_assoc, ← List.drop_drop, List.take_append_drop,
        List.take_append_drop]

private theorem takeFrame_eq_none (hcomplete : ¬ Complete r.limit r.buffered)
    (hbarred : ¬ Barred r.limit r.buffered) : r.takeFrame = .ok none := by
  have hfinds := r.finds
  generalize r.takeFrame = found at hfinds ⊢
  cases hfinds with
  | frame hle hshort hbuffered => exact absurd ⟨_, _, hle, hshort, hbuffered⟩ hcomplete
  | barred h => exact absurd h hbarred
  | nothing => rfl

/-- A call that waits goes on: it has looked at the buffer before it asked the stream. -/
def resume (r : Reader) (replies : List ReadReply) (count : Nat) :
    Received × Reader × List ReadReply × Nat :=
  match replies with
  | [] => (.pending, r, [], count)
  | .notReady :: rest => (.pending, r, rest, count)
  | .failed text :: rest => (.failed (.io text), r, rest, count)
  | .data [] :: rest => (.failed .closed, r, rest, count)
  | .data b :: rest => receive (r.feed b) rest (count + b.length)

/-- A new call does the same, since it finds nothing in the buffer. -/
theorem receive_eq_resume (h : r.takeFrame = .ok none) (replies : List ReadReply) (count : Nat) :
    r.receive replies count = r.resume replies count := by
  rw [receive.eq_def, h]
  rfl

private theorem receive_of_frame {r' : Reader} {body : Bytes}
    (h : r.takeFrame = .ok (some (body, r'))) (replies : List ReadReply) (count : Nat) :
    r.receive replies count = (.frame body, r', replies, count) := by
  rw [receive.eq_def, h]

theorem receive_of_error {why : TransportError} (h : r.takeFrame = .error why)
    (replies : List ReadReply) (count : Nat) :
    r.receive replies count = (.failed why, r, replies, count) := by
  rw [receive.eq_def, h]

/-- The call gives out no frame, although no length is above the limit. -/
def Received.Idle : Received → Prop
  | .frame _ | .failed (.tooLarge ..) => False
  | .pending | .failed .closed | .failed (.io _) => True

/-- How a call can end that has used these answers up, with these still to come. -/
inductive Ends (r : Reader) (used rest : List ReadReply) : Received → Reader → Prop where
  | frame {body buffered : Bytes} (hle : body.length ≤ r.limit) (hshort : Short body)
      (hbuffered : r.buffered ++ arriving used = wrap body ++ buffered) :
      Ends r used rest (.frame body) { r with buffered }
  | barred {size : Nat} (hbarred : Barred r.limit (r.buffered ++ arriving used)) :
      Ends r used rest (.failed (.tooLarge size r.limit)) (r.feed (arriving used))
  | idle {result : Received} (hidle : result.Idle)
      (hcomplete : ¬ Complete r.limit (r.buffered ++ arriving used))
      (hbarred : ¬ Barred r.limit (r.buffered ++ arriving used)) (hused : used = [] → rest = []) :
      Ends r used rest result (r.feed (arriving used))

theorem Ends.cons {used rest : List ReadReply} {result : Received} {r' : Reader} {b : Bytes}
    (h : (r.feed b).Ends used rest result r') : r.Ends (.data b :: used) rest result r' := by
  have hbuffered : (r.feed b).buffered ++ arriving used
      = r.buffered ++ arriving (.data b :: used) := List.append_assoc ..
  have hfeed : (r.feed b).feed (arriving used) = r.feed (arriving (.data b :: used)) :=
    congrArg (Reader.mk r.limit) hbuffered
  cases h with
  | frame hle hshort h => exact .frame hle hshort (hbuffered ▸ h)
  | barred hbarred => exact hfeed ▸ .barred (hbuffered ▸ hbarred)
  | idle hidle hcomplete hbarred _ =>
    exact hfeed ▸ .idle hidle (hbuffered ▸ hcomplete) (hbuffered ▸ hbarred) nofun

/-- A call used up some of the answers and counted what they brought. -/
def Calls (r : Reader) (replies : List ReadReply) (count : Nat)
    (outcome : Received × Reader × List ReadReply × Nat) : Prop :=
  ∃ used, replies = used ++ outcome.2.2.1 ∧ outcome.2.2.2 = count + (arriving used).length ∧
    r.Ends used outcome.2.2.1 outcome.1 outcome.2.1

variable {replies rest : List ReadReply} {count : Nat}

@[simp] theorem feed_nil (r : Reader) : r.feed [] = r := by rw [feed, List.append_nil]

/-- A call that waits and learns nothing ends at an answer without bytes, if there is any. -/
theorem calls_idle (used : List ReadReply) {result : Received} (h : r.takeFrame = .ok none)
    (hidle : result.Idle) (hreplies : replies = used ++ rest) (harriving : arriving used = [])
    (hused : used = [] → rest = []) : r.Calls replies count (result, r, rest, count) := by
  have hfinds := r.finds
  rw [h] at hfinds
  cases hfinds with
  | nothing hcomplete hbarred =>
    have hbuffered : r.buffered ++ arriving used = r.buffered := by rw [harriving, List.append_nil]
    have hends : r.Ends used rest result (r.feed (arriving used)) :=
      .idle hidle (hbuffered.symm ▸ hcomplete) (hbuffered.symm ▸ hbarred) hused
    rw [harriving, feed_nil] at hends
    exact ⟨used, hreplies, by rw [harriving, List.length_nil, Nat.add_zero], hends⟩

/-- A call need only be looked at when it finds nothing in the buffer. -/
theorem calls_receive_of_resume
    (h : r.takeFrame = .ok none → r.Calls replies count (r.resume replies count)) :
    r.Calls replies count (r.receive replies count) := by
  have hfinds := r.finds
  cases htake : r.takeFrame with
  | error why =>
    rw [htake] at hfinds
    rw [receive_of_error htake]
    cases hfinds with
    | @barred size hbarred =>
      have hends : r.Ends [] replies (.failed (.tooLarge size r.limit)) (r.feed []) :=
        .barred (by rwa [arriving_nil, List.append_nil])
      rw [feed_nil] at hends
      exact ⟨[], rfl, rfl, hends⟩
  | ok taken =>
    rw [htake] at hfinds
    cases hfinds with
    | frame hle hshort hbuffered =>
      rw [receive_of_frame htake]
      exact ⟨[], rfl, rfl, .frame hle hshort (by rwa [arriving_nil, List.append_nil])⟩
    | nothing hcomplete hbarred =>
      rw [receive_eq_resume htake]
      exact h htake

/-- **What a call does.** -/
theorem calls_receive (r : Reader) (replies : List ReadReply) (count : Nat) :
    r.Calls replies count (r.receive replies count) := by
  induction replies generalizing r count with
  | nil =>
    exact calls_receive_of_resume fun h ↦ calls_idle [] h trivial rfl rfl fun _ ↦ rfl
  | cons reply rest ih =>
    refine calls_receive_of_resume fun h ↦ ?_
    cases reply with
    | notReady => exact calls_idle [.notReady] h trivial rfl rfl nofun
    | failed text => exact calls_idle [.failed text] h trivial rfl rfl nofun
    | data b =>
      cases b with
      | nil => exact calls_idle [.data []] h trivial rfl rfl nofun
      | cons x b =>
        obtain ⟨used, hreplies, hcount, hends⟩ := ih (r.feed (x :: b)) (count + (x :: b).length)
        refine ⟨.data (x :: b) :: used, congrArg _ hreplies, hcount.trans ?_, hends.cons⟩
        rw [arriving_cons, List.length_append, Nat.add_assoc, ReadReply.bytes]

end Reader

/-! ## What a writer sends -/

/-- A transmission is finished, and these bytes went out, in however many writes. -/
inductive Transmission.Delivers : Transmission → Bytes → Prop where
  | finished {t : Transmission} {write : WriteReply} {flush : FlushReply}
      (h : t.advance write flush = .finished) : Delivers t []
  | blocked {t : Transmission} {write : WriteReply} {flush : FlushReply} {b : Bytes}
      (h : t.advance write flush = .blocked) (hrest : Delivers t b) : Delivers t b
  | wrote {t left : Transmission} {write : WriteReply} {flush : FlushReply} {b more : Bytes}
      (h : t.advance write flush = .wrote b left) (hrest : Delivers left more) :
      Delivers t (b ++ more)

theorem Transmission.Delivers.eq_rest {t : Transmission} {b : Bytes} (h : t.Delivers b) :
    b = t.rest := by
  induction h with
  | finished h => exact (rest_of_finished h).symm
  | blocked _ _ ih => exact ih
  | wrote h _ ih => rw [rest_of_wrote h, ih]

private theorem Transmission.delivers_rest (t : Transmission) : t.Delivers t.rest := by
  obtain ⟨size, rest⟩ := t
  have hdone : Delivers ⟨size, []⟩ [] := by
    have hflush : advance ⟨size, []⟩ .notReady .finished = .finished := rfl
    exact .finished hflush
  cases rest with
  | nil => exact hdone
  | cons x b =>
    have hwrite : advance ⟨size, x :: b⟩ (.accepts (x :: b).length) .finished
        = .wrote (x :: b) ⟨size, []⟩ := by simp [advance]
    have hall := Delivers.wrote hwrite hdone
    rwa [List.append_nil] at hall

/-- A writer with this limit has sent frames with these bodies, and these bytes went out. -/
inductive Sends (limit : Nat) : List Bytes → Bytes → Prop where
  | nil : Sends limit [] []
  | cons {body b more : Bytes} {bodies : List Bytes} {t : Transmission}
      (hstart : Transmission.start limit body = .ok t) (hdelivers : t.Delivers b)
      (hrest : Sends limit bodies more) : Sends limit (body :: bodies) (b ++ more)

private theorem Sends.eq_stream {b : Bytes} (h : Sends limit bodies b) : b = stream bodies := by
  induction h with
  | nil => rfl
  | cons hstart hdelivers _ ih =>
    unfold Transmission.start at hstart
    split at hstart
    · nomatch hstart
    · obtain rfl := Except.ok.inj hstart
      rw [hdelivers.eq_rest, ih, stream_cons]

private theorem sends_stream (h : ∀ body ∈ bodies, body.length ≤ limit) :
    Sends limit bodies (stream bodies) := by
  induction bodies with
  | nil => exact .nil
  | cons body bodies ih =>
    obtain ⟨hle, hothers⟩ := List.forall_mem_cons.mp h
    have hstart : Transmission.start limit body = .ok ⟨lengthSize + body.length, wrap body⟩ :=
      if_neg (Nat.not_lt.mpr hle)
    exact .cons hstart (Transmission.delivers_rest _) (ih hothers)

/-! ## Calls one after another -/

/-- A reader in use. -/
structure Reading where
  reader : Reader
  /-- What the stream is going to answer. -/
  replies : List ReadReply
  /-- What it has brought so far. -/
  read : Bytes
  /-- The number of bytes counted. -/
  count : Nat
  /-- How the calls so far ended. -/
  results : List Reader.Received

/-- What the owner of a reader can do. -/
inductive Turn where
  /-- Makes a new call; one that waits is given up. -/
  | call
  /-- Lets the call that waits go on. -/
  | goOn

def Reader.Received.frame? : Received → Option Bytes
  | .frame body => some body
  | .failed _ | .pending => none

private theorem Reader.Received.Idle.frame?_eq_none {result : Reader.Received} (h : result.Idle) :
    result.frame? = none := by
  cases result with
  | frame => exact h.elim
  | pending | failed => rfl

namespace Reading

/-- A reader that has not been used, and what the stream is going to answer. -/
def start (limit : Nat) (replies : List ReadReply) : Reading := ⟨.new limit, replies, [], 0, []⟩

def frames (s : Reading) : List Bytes := s.results.filterMap Reader.Received.frame?

/-- After a call has come to this. -/
def record (s : Reading) (outcome : Reader.Received × Reader × List ReadReply × Nat) : Reading where
  reader := outcome.2.1
  replies := outcome.2.2.1
  read := s.read ++ arriving (s.replies.take (s.replies.length - outcome.2.2.1.length))
  count := outcome.2.2.2
  results := s.results ++ [outcome.1]

/-- After one turn; there is nothing to go on with unless the last call waits. -/
def turn (s : Reading) : Turn → Reading
  | .call => s.record (s.reader.receive s.replies s.count)
  | .goOn =>
    if s.results.getLast? = some .pending then s.record (s.reader.resume s.replies s.count) else s

def run (s : Reading) (turns : List Turn) : Reading := turns.foldl turn s

/-- The last call gave out no frame. -/
def Stopped (s : Reading) : Prop :=
  ∃ result, s.results.getLast? = some result ∧ result.frame? = none

/-- What a call that ended so has left in the buffer. -/
def Leaves (limit : Nat) (buffered : Bytes) : Reader.Received → Prop
  | .frame _ => True
  | .failed (.tooLarge ..) => Barred limit buffered
  | .pending | .failed .closed | .failed (.io _) =>
    ¬ Complete limit buffered ∧ ¬ Barred limit buffered

/-- What is true of a reader after any calls. -/
structure Faithful (limit : Nat) (replies : List ReadReply) (s : Reading) : Prop where
  limit_eq : s.reader.limit = limit
  arriving_eq : s.read ++ arriving s.replies = arriving replies
  count_eq : s.count = s.read.length
  read_eq : s.read = stream s.frames ++ s.reader.buffered
  fitting : ∀ body ∈ s.frames, body.length ≤ limit ∧ Short body
  leaves : ∀ result, s.results.getLast? = some result → Leaves limit s.reader.buffered result
  /-- Each call gives out a frame or uses up an answer, until there is nothing more to come. -/
  progress : s.results.length + s.replies.length ≤ s.frames.length + replies.length ∨
    (¬ Complete limit s.reader.buffered ∧ (s.replies = [] ∨ Barred limit s.reader.buffered))

variable {limit : Nat} {replies : List ReadReply} {s : Reading}

theorem faithful_start (limit : Nat) (replies : List ReadReply) :
    (start limit replies).Faithful limit replies where
  limit_eq := rfl
  arriving_eq := rfl
  count_eq := rfl
  read_eq := rfl
  fitting := List.forall_mem_nil _
  leaves := nofun
  progress := .inl (by simp [start, frames])

theorem frames_concat {result : Reader.Received} {reader : Reader} {read : Bytes} {count : Nat} :
    frames ⟨reader, replies, read, count, s.results ++ [result]⟩
      = s.frames ++ result.frame?.toList := by
  rw [frames, List.filterMap_append]
  cases result <;> rfl

theorem record_eq {used rest : List ReadReply} {result : Reader.Received} {r : Reader} {count : Nat}
    (h : s.replies = used ++ rest) : s.record (result, r, rest, count)
      = ⟨r, rest, s.read ++ arriving used, count, s.results ++ [result]⟩ := by
  have htake : s.replies.take (s.replies.length - rest.length) = used := by
    rw [h, List.length_append, Nat.add_sub_cancel]
    exact List.take_left' rfl
  rw [record, htake]

theorem leaves_iff_of_idle {buffered : Bytes} {result : Reader.Received} (h : result.Idle) :
    Leaves limit buffered result ↔ ¬ Complete limit buffered ∧ ¬ Barred limit buffered := by
  cases result with
  | frame => exact h.elim
  | pending => exact Iff.rfl
  | failed why =>
    cases why with
    | tooLarge => exact h.elim
    | closed | io => exact Iff.rfl

namespace Faithful

theorem ended {used : List ReadReply} (hused : s.replies = [] → used = [])
    (h : ¬ Complete limit s.reader.buffered ∧ (s.replies = [] ∨ Barred limit s.reader.buffered)) :
    ¬ Complete limit (s.reader.buffered ++ arriving used) := by
  rcases h with ⟨hcomplete, hempty | hbarred⟩
  · rwa [hused hempty, arriving_nil, List.append_nil]
  · exact not_complete_of_barred (hbarred.append _)

/-- A call leaves a faithful reader when what it gave out and what it kept are what the buffer and
the answers held. -/
theorem ends (h : s.Faithful limit replies) {used rest : List ReadReply}
    (hreplies : s.replies = used ++ rest) {result : Reader.Received} {buffered : Bytes}
    (hbytes : s.reader.buffered ++ arriving used = stream result.frame?.toList ++ buffered)
    (hfitting : ∀ body ∈ result.frame?.toList, body.length ≤ limit ∧ Short body)
    (hleaves : Leaves limit buffered result)
    (hprogress : s.results.length + 1 + rest.length ≤
        s.frames.length + result.frame?.toList.length + replies.length ∨
      (¬ Complete limit buffered ∧ (rest = [] ∨ Barred limit buffered))) :
    Reading.Faithful limit replies ⟨{ s.reader with buffered }, rest, s.read ++ arriving used,
      s.count + (arriving used).length, s.results ++ [result]⟩ where
  limit_eq := h.limit_eq
  arriving_eq := by
    rw [List.append_assoc, ← arriving_append, ← hreplies]
    exact h.arriving_eq
  count_eq := by rw [List.length_append, h.count_eq]
  read_eq := by
    rw [frames_concat, stream_append, List.append_assoc, ← hbytes, ← List.append_assoc, ← h.read_eq]
  fitting := by
    rw [frames_concat]
    exact List.forall_mem_append.mpr ⟨h.fitting, hfitting⟩
  leaves := by
    intro result' hlast
    obtain rfl : result = result' := by simpa using hlast
    exact hleaves
  progress := by
    rw [frames_concat, List.length_append, List.length_append, List.length_singleton]
    exact hprogress

theorem record (h : s.Faithful limit replies)
    {outcome : Reader.Received × Reader × List ReadReply × Nat}
    (hcalls : s.reader.Calls s.replies s.count outcome) :
    (s.record outcome).Faithful limit replies := by
  obtain ⟨result, reader, rest, count⟩ := outcome
  obtain ⟨used, hreplies, rfl, hends⟩ := hcalls
  simp only at hreplies hends
  rw [record_eq hreplies]
  have hused : s.replies = [] → used = [] := fun hempty ↦
    (List.append_eq_nil_iff.mp (hreplies.symm.trans hempty)).1
  have hlength : s.replies.length = used.length + rest.length := by
    rw [hreplies, List.length_append]
  have hlimit := h.limit_eq
  cases hends with
  | @frame body buffered hle hshort hbuffered =>
    rw [hlimit] at hle
    -- There was more to come, or else there would be no frame now.
    have hopen := h.progress.resolve_right fun hended ↦
      ended hused hended ⟨body, buffered, hle, hshort, hbuffered⟩
    refine h.ends hreplies ?_ (List.forall_mem_singleton.mpr ⟨hle, hshort⟩) trivial (.inl ?_)
    · exact hbuffered.trans (by simp [Reader.Received.frame?])
    · simp only [Reader.Received.frame?, Option.toList_some, List.length_singleton]
      omega
  | barred hbarred =>
    rw [hlimit] at hbarred
    exact h.ends hreplies rfl (List.forall_mem_nil _) hbarred
      (.inr ⟨not_complete_of_barred hbarred, .inr hbarred⟩)
  | idle hidle hcomplete hbarred hstop =>
    rw [hlimit] at hcomplete hbarred
    have hnone := hidle.frame?_eq_none
    refine h.ends hreplies (by rw [hnone]; rfl) (by rw [hnone]; exact List.forall_mem_nil _)
      ((leaves_iff_of_idle hidle).mpr ⟨hcomplete, hbarred⟩) ?_
    by_cases hempty : used = []
    · exact .inr ⟨hcomplete, .inl (hstop hempty)⟩
    · have hpos := List.length_pos_iff.mpr hempty
      rcases h.progress with hopen | ⟨-, hnothing | hblocked⟩
      · rw [hnone, Option.toList_none, List.length_nil]
        exact .inl (by omega)
      · exact absurd (hused hnothing) hempty
      · exact absurd (hblocked.append _) hbarred

/-- A call that waits and goes on does what a new one does. -/
theorem goOn_eq_call (h : s.Faithful limit replies)
    (hpending : s.results.getLast? = some .pending) : s.turn .goOn = s.turn .call := by
  obtain ⟨hcomplete, hbarred⟩ := h.leaves _ hpending
  rw [← h.limit_eq] at hcomplete hbarred
  rw [turn, turn, if_pos hpending,
    Reader.receive_eq_resume (Reader.takeFrame_eq_none hcomplete hbarred)]

theorem turn (h : s.Faithful limit replies) (t : Turn) : (s.turn t).Faithful limit replies := by
  have hcall : (s.turn .call).Faithful limit replies := h.record (s.reader.calls_receive _ _)
  cases t with
  | call => exact hcall
  | goOn =>
    by_cases hpending : s.results.getLast? = some .pending
    · exact h.goOn_eq_call hpending ▸ hcall
    · rwa [Reading.turn, if_neg hpending]

theorem run (h : s.Faithful limit replies) (turns : List Turn) :
    (s.run turns).Faithful limit replies := by
  induction turns generalizing s with
  | nil => exact h
  | cons t turns ih => exact ih (h.turn t)

/-- What a reader has given out is in what another one gives out that has read as much and stops. -/
theorem frames_isPrefix {replies' : List ReadReply} {s' : Reading} (h : s.Faithful limit replies)
    (h' : s'.Faithful limit replies') (hread : s'.read <+: s.read)
    (hcomplete : ¬ Complete limit s.reader.buffered) : s'.frames <+: s.frames := by
  rw [h.read_eq, h'.read_eq] at hread
  exact prefix_of_stream_prefix h'.fitting (fun b hb ↦ (h.fitting b hb).2) hcomplete hread

theorem not_complete_of_stopped (h : s.Faithful limit replies) (hstopped : s.Stopped) :
    ¬ Complete limit s.reader.buffered := by
  obtain ⟨result, hlast, hnone⟩ := hstopped
  have hleaves := h.leaves result hlast
  cases result with
  | frame => nomatch hnone
  | pending => exact hleaves.1
  | failed why =>
    cases why with
    | tooLarge => exact not_complete_of_barred hleaves
    | closed | io => exact hleaves.1

/-! ### What a writer has sent -/

variable {bodies : List Bytes}

/-- What comes out is what was sent, in that order. -/
theorem frames_isPrefix_sent (h : s.Faithful limit replies) (hbodies : ∀ b ∈ bodies, Short b)
    (hread : s.read <+: stream bodies) : s.frames <+: bodies := by
  rw [h.read_eq, ← List.append_nil (stream bodies)] at hread
  exact prefix_of_stream_prefix h.fitting hbodies not_complete_nil hread

/-- All of it comes out when all of it has been read. -/
theorem frames_eq_sent (h : s.Faithful limit replies)
    (hbodies : ∀ b ∈ bodies, b.length ≤ limit ∧ Short b) (hread : s.read = stream bodies)
    (hcomplete : ¬ Complete limit s.reader.buffered) : s.frames = bodies := by
  have hsent : s.frames <+: bodies :=
    h.frames_isPrefix_sent (fun b hb ↦ (hbodies b hb).2) (hread ▸ List.prefix_refl _)
  have hall : stream bodies ++ [] = stream s.frames ++ s.reader.buffered := by
    rw [List.append_nil, ← hread, h.read_eq]
  have hread' := prefix_of_stream_prefix hbodies (fun b hb ↦ (h.fitting b hb).2) hcomplete
    ⟨[], (List.append_nil _).trans hall⟩
  exact hsent.eq_of_length_le hread'.length_le

private theorem frames_eq_of_length (h : s.Faithful limit replies)
    (hbodies : ∀ b ∈ bodies, b.length ≤ limit ∧ Short b)
    (hreplies : arriving replies = stream bodies)
    (hlength : bodies.length + replies.length < s.results.length) : s.frames = bodies := by
  have hread : s.read <+: stream bodies := ⟨arriving s.replies, h.arriving_eq.trans hreplies⟩
  have hframes := h.frames_isPrefix_sent (fun b hb ↦ (hbodies b hb).2) hread
  have hcount := hframes.length_le
  rcases h.progress with hopen | ⟨hcomplete, hempty | hbarred⟩
  · omega
  · have hall := h.arriving_eq
    rw [hempty, arriving_nil, List.append_nil, hreplies] at hall
    exact h.frames_eq_sent hbodies hall hcomplete
  -- The buffer begins with the first frame that has not been given out, if with any.
  · obtain ⟨others, rfl⟩ := hframes
    refine absurd hbarred (not_barred_of_append
      (fun b hb ↦ hbodies b (List.mem_append_right _ hb)) ?_)
    rwa [h.read_eq, stream_append, List.prefix_append_right_inj] at hread

end Faithful

/-- **What a reader gives out depends on the bytes alone.** Whatever the stream answers and
whichever calls are given up, after every turn the bytes read are counted, and they are the frames
given out so far and the buffer. A call that waits, fails or meets the end of the stream leaves no
frame within the limit and no length above it at the front of the buffer, and one that waits may as
well be made again. So a reader that has read as much as another, or more, and then finds no frame
has given out all that the other has. And if the bytes are those of frames that a writer has sent,
all within the limit, then these frames come out, in their order and each once: all of them when all
bytes have been read and no frame is found, and after enough calls this is so. -/
theorem reassembly (limit : Nat) (replies : List ReadReply) (turns : List Turn) :
    let s := (start limit replies).run turns
    (s.read ++ arriving s.replies = arriving replies ∧ s.count = s.read.length ∧
      s.read = stream s.frames ++ s.reader.buffered ∧
      ∀ body ∈ s.frames, body.length ≤ limit ∧ Short body) ∧
    (∀ result, s.results.getLast? = some result → result.Idle →
      ¬ Complete limit s.reader.buffered ∧ ¬ Barred limit s.reader.buffered) ∧
    (s.results.getLast? = some .pending → s.turn .goOn = s.turn .call) ∧
    (∀ replies' turns', let s' := (start limit replies').run turns'
      s'.read <+: s.read → s.Stopped → s'.frames <+: s.frames) ∧
    (limit < UInt32.size → ∀ (writerLimit : Nat) (bodies : List Bytes) (sent : Bytes),
      Sends writerLimit bodies sent → (∀ body ∈ bodies, body.length ≤ limit) →
      (s.read <+: sent → s.frames <+: bodies) ∧
      (s.read = sent → s.Stopped → s.frames = bodies) ∧
      (arriving replies = sent → bodies.length + replies.length < s.results.length →
        s.frames = bodies)) := by
  intro s
  have h : s.Faithful limit replies := (faithful_start limit replies).run turns
  refine ⟨⟨h.arriving_eq, h.count_eq, h.read_eq, h.fitting⟩,
    fun result hlast hidle ↦ (leaves_iff_of_idle hidle).mp (h.leaves result hlast),
    h.goOn_eq_call, fun replies' turns' hread hstopped ↦ ?_,
    fun hlimit writerLimit bodies sent hsends hbodies ↦ ?_⟩
  · exact h.frames_isPrefix ((faithful_start limit replies').run turns') hread
      (h.not_complete_of_stopped hstopped)
  · obtain rfl := hsends.eq_stream
    have hfit : ∀ body ∈ bodies, body.length ≤ limit ∧ Short body := fun body hbody ↦
      ⟨hbodies body hbody, Nat.lt_of_le_of_lt (hbodies body hbody) hlimit⟩
    exact ⟨h.frames_isPrefix_sent fun body hbody ↦ (hfit body hbody).2,
      fun hread hstopped ↦ h.frames_eq_sent hfit hread (h.not_complete_of_stopped hstopped),
      h.frames_eq_of_length hfit⟩

/-- Three frames are cut in the middle of a length and of a body, with a wait, a failure and an end
of the stream in between. The call that waits is given up. -/
theorem reassembly_interrupted :
    let bodies : List Bytes := [[7], [], [8, 9]]
    let replies : List ReadReply := [.data [0, 0], .notReady, .data [0, 1, 7, 0], .failed "reset",
      .data [], .data [0, 0, 0, 0, 0, 0, 2, 8], .data [9]]
    let s := (start 2 replies).run (List.replicate 11 .call)
    Sends 5 bodies (arriving replies) ∧ (∀ body ∈ bodies, body.length ≤ 2) ∧ s.frames = bodies := by
  intro bodies replies s
  have hsends : Sends 5 bodies (arriving replies) := sends_stream (by decide)
  have hbodies : ∀ body ∈ bodies, body.length ≤ 2 := by decide
  obtain ⟨-, -, -, -, hsent⟩ := reassembly 2 replies (List.replicate 11 .call)
  exact ⟨hsends, hbodies, (hsent (by decide) 5 bodies _ hsends hbodies).2.2 rfl (by decide)⟩

end Reading

end Frame

end DeskLink
