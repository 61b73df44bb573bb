import Mathlib.Algebra.GroupWithZero.Nat
import Mathlib.Data.List.Forall2
import DeskLink.Link
import DeskLink.Proofs.Transport.Writing

/-!
# Every byte is accounted for

A link sends one frame after another into a stream that may take them in pieces of any size, take
nothing, fail at any byte or fail at passing on what it has taken; and any of the sends may be given
up. What the stream has in the end is in one piece for each send: the whole frame of a send that
succeeded, nothing of one that was refused, and a beginning of the frame otherwise, which may be all
of it. The count of the link is that of the frames that were sent successfully, so it says nothing
about the other pieces.
-/

namespace DeskLink

namespace Frame

/-- The bytes are a frame with this body: its length in four bytes, the most significant one first,
and the body. -/
def IsFrame (body b : Bytes) : Prop :=
  ∃ header, header.length = lengthSize ∧ Bytes.toNat header = body.length ∧ b = header ++ body

private theorem isFrame_wrap {body : Bytes} (h : Short body) : IsFrame body (wrap body) := by
  refine ⟨Bytes.ofNat lengthSize body.length, Bytes.length_ofNat _ _, ?_, rfl⟩
  rw [Bytes.toNat_ofNat]
  exact Nat.mod_eq_of_lt h

private theorem Transmission.exists_io_of_transmit {t : Transmission} {answers : List Answer}
    {why : TransportError} (h : (t.transmit answers).2 = .failed why) :
    ∃ text, why = .io text := by
  induction answers generalizing t with
  | nil => nomatch h
  | cons answer answers ih =>
    unfold transmit at h
    split at h
    · exact ih h
    · exact ih h
    · nomatch h
    · rename_i hfailed
      obtain rfl := Ending.failed.inj h
      exact exists_io_of_failed hfailed

end Frame

namespace Link

open DeskLink.Frame (IsFrame Short Transmission)
open DeskLink.Frame.Transmission (Answer Ending)

/-- A link, the stream that it sends into, and what has come of the sends so far. -/
structure Sending where
  link : Link
  /-- What the stream has taken. -/
  received : Bytes
  /-- The bodies that were to be sent, and how each send has ended. -/
  results : List (Bytes × Ending)

namespace Sending

def begin (l : Link) : Sending := ⟨l, [], []⟩

/-- A send of this body, while the stream gives these answers. -/
def send (s : Sending) (body : Bytes) (answers : List Answer) : Sending :=
  match Transmission.start s.link.limit body with
  | .error why => { s with results := s.results ++ [(body, .failed why)] }
  | .ok t =>
    let (written, ending) := t.transmit answers
    { link := if ending = .finished then s.link.sent t.size else s.link
      received := s.received ++ written
      results := s.results ++ [(body, ending)] }

def sendAll (s : Sending) (sends : List (Bytes × List Answer)) : Sending :=
  sends.foldl (fun s x ↦ s.send x.1 x.2) s

/-- The bodies that were sent successfully. -/
def delivered (s : Sending) : List Bytes :=
  s.results.filterMap fun x ↦ if x.2 = .finished then some x.1 else none

/-- The bytes of the frames with these bodies. -/
def size (bodies : List Bytes) : Nat :=
  (bodies.map fun body ↦ Frame.lengthSize + body.length).sum

/-! ## One send -/

/-- What a send of this body under this limit has left in the stream when it has ended so. -/
inductive Leaves (limit : Nat) (body : Bytes) : Ending → Bytes → Prop where
  | whole {b : Bytes} (hle : body.length ≤ limit) (hframe : IsFrame body b) :
      Leaves limit body .finished b
  | refused (hlt : limit < body.length) :
      Leaves limit body (.failed (.tooLarge body.length limit)) []
  | broken {b frame : Bytes} {text : String} (hle : body.length ≤ limit)
      (hframe : IsFrame body frame) (hpart : b <+: frame) : Leaves limit body (.failed (.io text)) b
  | abandoned {b frame : Bytes} (hle : body.length ≤ limit) (hframe : IsFrame body frame)
      (hpart : b <+: frame) : Leaves limit body .abandoned b

variable {limit : Nat} {body b : Bytes} {ending : Ending}

private theorem Leaves.tooLarge_iff (h : Leaves limit body ending b) :
    (∃ size l, ending = .failed (.tooLarge size l)) ↔ limit < body.length := by
  cases h with
  | refused hlt => exact ⟨fun _ ↦ hlt, fun _ ↦ ⟨_, _, rfl⟩⟩
  | whole hle | broken hle | abandoned hle =>
    refine ⟨?_, fun hlt ↦ absurd hle (Nat.not_le.mpr hlt)⟩
    rintro ⟨size, l, hending⟩
    nomatch hending

private theorem leaves_of_transmit (hle : body.length ≤ limit) (hshort : Short body)
    {t : Transmission} (ht : t.rest = Frame.wrap body) (answers : List Answer) :
    Leaves limit body (t.transmit answers).2 (t.transmit answers).1 := by
  have hframe := Frame.isFrame_wrap hshort
  have hpart := t.transmit_isPrefix answers
  rw [ht] at hpart
  cases hending : (t.transmit answers).2 with
  | finished =>
    -- Whatever pieces a finished transmission went out in, they are all of what was to go out.
    rw [(Frame.Transmission.delivers_of_finished hending).eq_rest, ht]
    exact .whole hle hframe
  | failed why =>
    obtain ⟨text, rfl⟩ := Frame.Transmission.exists_io_of_transmit hending
    exact .broken hle hframe hpart
  | abandoned => exact .abandoned hle hframe hpart

/-- A send adds one result and one piece, and counts a frame if it succeeds. -/
theorem exists_leaves_of_send (s : Sending) (hlimit : s.link.limit < UInt32.size) (body : Bytes)
    (answers : List Answer) : ∃ ending b, Leaves s.link.limit body ending b ∧
      s.send body answers =
        { link :=
            if ending = .finished then s.link.sent (Frame.lengthSize + body.length) else s.link
          received := s.received ++ b
          results := s.results ++ [(body, ending)] } := by
  by_cases hlt : s.link.limit < body.length
  · refine ⟨_, [], .refused hlt, ?_⟩
    simp [send, Transmission.start, hlt]
  · have hle : body.length ≤ s.link.limit := Nat.le_of_not_lt hlt
    have hshort : Short body := Nat.lt_of_le_of_lt hle hlimit
    refine ⟨_, _, leaves_of_transmit hle hshort
      (t := ⟨Frame.lengthSize + body.length, Frame.wrap body⟩) rfl answers, ?_⟩
    simp [send, Transmission.start, hlt]

/-! ## All sends -/

/-- The sends over this link are accounted for. -/
structure Balanced (l : Link) (s : Sending) : Prop where
  link_eq : s.link = l.sent (size s.delivered)
  pieces : ∃ pieces, s.received = pieces.flatten ∧
    List.Forall₂ (fun x b ↦ Leaves l.limit x.1 x.2 b) s.results pieces

variable {l : Link} {s : Sending}

private theorem balanced_begin (l : Link) : (begin l).Balanced l := ⟨rfl, [], rfl, .nil⟩

theorem Balanced.limit_eq (h : s.Balanced l) : s.link.limit = l.limit := by
  rw [h.link_eq]
  rfl

theorem Balanced.send (h : s.Balanced l) (hlimit : l.limit < UInt32.size) (body : Bytes)
    (answers : List Answer) : (s.send body answers).Balanced l := by
  rw [← h.limit_eq] at hlimit
  obtain ⟨ending, b, hleaves, hsend⟩ := s.exists_leaves_of_send hlimit body answers
  rw [h.limit_eq] at hleaves
  obtain ⟨pieces, hreceived, hpieces⟩ := h.pieces
  rw [hsend]
  refine ⟨?_, pieces ++ [b], ?_, ?_⟩
  · dsimp only [delivered]
    rw [List.filterMap_append, h.link_eq, delivered]
    by_cases hfinished : ending = .finished
    · simp [hfinished, size, Link.sent, Nat.add_assoc]
    · simp [hfinished]
  · rw [List.flatten_append, List.flatten_singleton, hreceived]
  · exact List.rel_append hpieces (.cons hleaves .nil)

theorem Balanced.sendAll (h : s.Balanced l) (hlimit : l.limit < UInt32.size)
    (sends : List (Bytes × List Answer)) : (s.sendAll sends).Balanced l := by
  induction sends generalizing s with
  | nil => exact h
  | cons x sends ih => exact ih (h.send hlimit x.1 x.2)

private theorem bodies_sendAll (s : Sending) (sends : List (Bytes × List Answer)) :
    (s.sendAll sends).results.map Prod.fst = s.results.map Prod.fst ++ sends.map Prod.fst := by
  induction sends generalizing s with
  | nil => exact (List.append_nil _).symm
  | cons x sends ih =>
    have hsend : (s.send x.1 x.2).results.map Prod.fst = s.results.map Prod.fst ++ [x.1] := by
      unfold send
      split <;> simp
    calc ((s.send x.1 x.2).sendAll sends).results.map Prod.fst
      _ = (s.results.map Prod.fst ++ [x.1]) ++ sends.map Prod.fst := by rw [ih, hsend]
      _ = s.results.map Prod.fst ++ (x :: sends).map Prod.fst := by simp

/-- **Every byte is accounted for.** Whatever a stream answers and whichever sends are given up,
each send has a result, and what the stream has taken is one piece for each of them, in order: a
whole frame for a send that succeeded, nothing for one whose body is above the limit, which is when
a send is refused for its size, and a beginning of the frame for one at which the stream failed or
that was given up. The count grows by the frames that were sent successfully, lengths included. -/
theorem every_byte_counted (l : Link) (hlimit : l.limit < UInt32.size)
    (sends : List (Bytes × List Answer)) :
    let s := (begin l).sendAll sends
    s.results.map Prod.fst = sends.map Prod.fst ∧
    (∃ pieces, s.received = pieces.flatten ∧
      List.Forall₂ (fun x b ↦ Leaves l.limit x.1 x.2 b) s.results pieces) ∧
    (∀ x ∈ s.results,
      (∃ size limit, x.2 = .failed (.tooLarge size limit)) ↔ l.limit < x.1.length) ∧
    s.link.bytesSent = l.bytesSent + size s.delivered := by
  intro s
  have h : s.Balanced l := (balanced_begin l).sendAll hlimit sends
  obtain ⟨pieces, hreceived, hpieces⟩ := h.pieces
  have hsizes := hpieces.imp fun x b hleaves ↦ And.intro hleaves.tooLarge_iff hleaves
  rw [List.forall₂_and_left] at hsizes
  refine ⟨bodies_sendAll (begin l) sends, ⟨pieces, hreceived, hpieces⟩, hsizes.1, ?_⟩
  rw [h.link_eq]
  rfl

/-- The stream takes one frame in two pieces; a body is above the limit; the stream takes all of a
frame and fails at passing it on, takes two bytes of a frame and no more, and three of one that is
given up. Only the first frame counts. -/
theorem every_byte_counted_once :
    let all : Answer := ⟨.accepts 99, .notReady⟩
    let sends : List (Bytes × List Answer) := [
      ([1, 2], [⟨.accepts 5, .notReady⟩, all, ⟨.notReady, .finished⟩]),
      ([1, 2, 3, 4], [all]),
      ([5], [all, ⟨.notReady, .failed "broken pipe"⟩]),
      ([6], [⟨.accepts 2, .notReady⟩, ⟨.accepts 0, .notReady⟩]),
      ([7], [⟨.accepts 3, .notReady⟩])]
    let s := (begin (Link.new 1 3)).sendAll sends
    s.results.map Prod.snd = [.finished, .failed (.tooLarge 4 3), .failed (.io "broken pipe"),
        .failed (.io "write zero"), .abandoned] ∧
      s.received = [0, 0, 0, 2, 1, 2] ++ [0, 0, 0, 1, 5] ++ [0, 0] ++ [0, 0, 0] ∧
      (∃ pieces, s.received = pieces.flatten ∧
        List.Forall₂ (fun x b ↦ Leaves 3 x.1 x.2 b) s.results pieces) ∧
      s.link.bytesSent = 6 := by
  intro all sends
  obtain ⟨-, hpieces, -, hcount⟩ := every_byte_counted (Link.new 1 3) (by decide) sends
  refine ⟨?_, ?_, hpieces, hcount.trans ?_⟩
  · decide +kernel
  · decide +kernel
  · decide +kernel

end Sending

end Link

end DeskLink
