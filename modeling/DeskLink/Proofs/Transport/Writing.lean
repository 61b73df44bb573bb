import DeskLink.Proofs.Transport.Reassembly

/-!
# Writing a frame

A frame is written by going on with its transmission until the stream has taken all of it and
passed it on, or has failed, or until the writer gives up. Whatever the stream answers, what has
gone out is a beginning of the frame, and all of it if the transmission was finished. All of it may
have gone out otherwise, too, when the stream fails at passing on what it has taken.
-/

namespace DeskLink.Frame.Transmission

/-- What a stream answers when a transmission is to go on. -/
structure Answer where
  write : WriteReply
  flush : FlushReply

/-- How a transmission has ended. -/
inductive Ending where
  | finished
  | failed (why : TransportError)
  /-- The writer has given it up. -/
  | abandoned
  deriving DecidableEq

/-- The bytes that go out while the stream gives these answers, and how the transmission has ended
then. -/
def transmit (t : Transmission) : List Answer → Bytes × Ending
  | [] => ([], .abandoned)
  | answer :: answers =>
    match t.advance answer.write answer.flush with
    | .blocked => t.transmit answers
    | .wrote b left =>
      let (more, ending) := left.transmit answers
      (b ++ more, ending)
    | .finished => ([], .finished)
    | .failed why => ([], .failed why)

theorem transmit_isPrefix (t : Transmission) (answers : List Answer) :
    (t.transmit answers).1 <+: t.rest := by
  induction answers generalizing t with
  | nil => exact List.nil_prefix
  | cons answer answers ih =>
    unfold transmit
    split
    · exact ih t
    · rename_i b left hwrote
      rw [rest_of_wrote hwrote]
      exact (List.prefix_append_right_inj b).mpr (ih left)
    · exact List.nil_prefix
    · exact List.nil_prefix

theorem delivers_of_finished {t : Transmission} {answers : List Answer}
    (h : (t.transmit answers).2 = .finished) : t.Delivers (t.transmit answers).1 := by
  induction answers generalizing t with
  | nil => nomatch h
  | cons answer answers ih =>
    unfold transmit at h ⊢
    split at h
    · rename_i hblocked
      exact .blocked hblocked (ih h)
    · rename_i b left hwrote
      exact .wrote hwrote (ih h)
    · rename_i hfinished
      exact .finished hfinished
    · nomatch h

end DeskLink.Frame.Transmission
