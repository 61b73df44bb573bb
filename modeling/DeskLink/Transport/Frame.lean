import DeskLink.Transport.Stream

/-!
# Frames

A byte stream carries frames: four bytes of big-endian length, then so many bytes.

A `Reader` collects what reads give until a frame is complete. What is left over stays in its
buffer, so giving up between two reads loses nothing. A length above the limit is refused as soon
as it is seen: the body is never collected, and the reader stays at that length for good.

A frame that is being written is a `Transmission`: what the stream has not yet taken.
-/

namespace DeskLink

/-- Why a frame could not be read or written. -/
inductive TransportError where
  | tooLarge (size limit : Nat)
  /-- The stream ended. -/
  | closed
  | io (text : String)
  deriving DecidableEq, Repr

def TransportError.message : TransportError → String
  | tooLarge size limit => s!"frame of {size} bytes exceeds the {limit} byte limit"
  | closed => "stream closed by peer"
  | io text => s!"transport I/O error: {text}"

namespace Frame

/-- The bytes of a length. -/
def lengthSize : Nat := 4

/-- A frame with this body. -/
def wrap (body : Bytes) : Bytes := Bytes.ofNat lengthSize body.length ++ body

/-! ## Reading -/

/-- What has been read and not yet given out. -/
structure Reader where
  limit : Nat
  buffered : Bytes
  deriving DecidableEq, Repr

namespace Reader

def new (limit : Nat) : Reader := ⟨limit, []⟩

/-- The first frame in the buffer, when it is complete, and the reader without it. -/
def takeFrame (r : Reader) : Except TransportError (Option (Bytes × Reader)) :=
  if r.buffered.length < lengthSize then .ok none
  else
    let size := Bytes.toNat (r.buffered.take lengthSize)
    if r.limit < size then .error (.tooLarge size r.limit)
    else if r.buffered.length < lengthSize + size then .ok none
    else
      let body := (r.buffered.drop lengthSize).take size
      .ok (some (body, { r with buffered := r.buffered.drop (lengthSize + size) }))

/-- The reader after a read gave these bytes. -/
def feed (r : Reader) (b : Bytes) : Reader := { r with buffered := r.buffered ++ b }

/-- How a call for the next frame ends. -/
inductive Received where
  | frame (body : Bytes)
  | failed (why : TransportError)
  /-- The stream has nothing yet; the call can be given up and made again. -/
  | pending
  deriving DecidableEq, Repr

/-- Reads until a frame is complete, against the answers the stream is going to give; gives the
answers that were not needed and the number of bytes read. -/
def receive (r : Reader) (replies : List ReadReply) (count : Nat) :
    Received × Reader × List ReadReply × Nat :=
  match r.takeFrame with
  | .error why => (.failed why, r, replies, count)
  | .ok (some (body, r)) => (.frame body, r, replies, count)
  | .ok none =>
    match replies with
    | [] => (.pending, r, [], count)
    | .notReady :: rest => (.pending, r, rest, count)
    | .failed text :: rest => (.failed (.io text), r, rest, count)
    | .data [] :: rest => (.failed .closed, r, rest, count)
    | .data b :: rest => receive (r.feed b) rest (count + b.length)

end Reader

/-! ## Writing -/

/-- A frame on its way into a stream. -/
structure Transmission where
  /-- The bytes of the whole frame. -/
  size : Nat
  /-- What the stream has not taken. -/
  rest : Bytes
  deriving DecidableEq, Repr

namespace Transmission

/-- The frame with this body, not begun; refused when the body is above the limit. -/
def start (limit : Nat) (body : Bytes) : Except TransportError Transmission :=
  if limit < body.length then .error (.tooLarge body.length limit)
  else .ok ⟨lengthSize + body.length, wrap body⟩

/-- How one attempt to go on with a transmission ends. -/
inductive Progress where
  /-- The stream is not ready. -/
  | blocked
  /-- These bytes went out, and this is left. -/
  | wrote (b : Bytes) (left : Transmission)
  /-- The whole frame went out. -/
  | finished
  | failed (why : TransportError)
  deriving DecidableEq, Repr

/-- Goes on by one write, or by passing everything on when all is written. A stream that takes no
bytes of a write will never take any. -/
def advance (t : Transmission) (write : WriteReply) (flush : FlushReply) : Progress :=
  match t.rest with
  | [] =>
    match flush with
    | .notReady => .blocked
    | .finished => .finished
    | .failed text => .failed (.io text)
  | rest =>
    match write with
    | .notReady => .blocked
    | .accepts 0 => .failed (.io "write zero")
    | .accepts n => .wrote (rest.take n) { t with rest := rest.drop n }
    | .failed text => .failed (.io text)

end Transmission

end Frame

end DeskLink
