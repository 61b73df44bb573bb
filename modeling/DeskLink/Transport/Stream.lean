import DeskLink.Bytes

/-!
# Byte streams

What a stream answers when it is asked to read or to write. Streams are somebody else's: the
library only sees their answers, so every statement about it holds for any list of answers.

`Pipe` is the one kind of stream that the library has itself: one direction of an in-memory
connection, a bounded buffer between a writer and a reader.
-/

namespace DeskLink

/-- The answer to a read. -/
inductive ReadReply where
  /-- Nothing yet. -/
  | notReady
  /-- These bytes; no bytes mean the end of the stream. -/
  | data (b : Bytes)
  | failed (text : String)
  deriving DecidableEq, Repr

/-- The answer to a write. -/
inductive WriteReply where
  /-- No room yet. -/
  | notReady
  /-- At most this many of the bytes offered are taken. -/
  | accepts (n : Nat)
  | failed (text : String)
  deriving DecidableEq, Repr

/-- The answer to a request to pass everything on. -/
inductive FlushReply where
  | notReady
  | finished
  | failed (text : String)
  deriving DecidableEq, Repr

/-- The most that one read asks for. -/
def readChunk : Nat := 8192

/-- One direction of an in-memory connection. -/
structure Pipe where
  capacity : Nat
  /-- Written and not read yet. -/
  buffered : Bytes
  /-- Neither end will use it any more: nothing can be written, and what is buffered is the rest. -/
  closed : Bool
  deriving DecidableEq, Repr

namespace Pipe

def new (capacity : Nat) : Pipe := ⟨capacity, [], false⟩

def readReply (p : Pipe) : ReadReply :=
  match p.buffered with
  | [] => if p.closed then .data [] else .notReady
  | b => .data (b.take readChunk)

/-- The pipe after a read of this many bytes. -/
def consume (p : Pipe) (n : Nat) : Pipe := { p with buffered := p.buffered.drop n }

def writeReply (p : Pipe) : WriteReply :=
  if p.closed then .failed "broken pipe"
  else if p.capacity ≤ p.buffered.length then .notReady
  else .accepts (p.capacity - p.buffered.length)

/-- The pipe after these bytes were taken. -/
def append (p : Pipe) (b : Bytes) : Pipe := { p with buffered := p.buffered ++ b }

/-- The pipe after one of its ends is gone. -/
def close (p : Pipe) : Pipe := { p with closed := true }

end Pipe

/-- One end of an in-memory connection. -/
structure Endpoint where
  incoming : Pipe
  outgoing : Pipe
  deriving DecidableEq, Repr

namespace Endpoint

/-- The other end. -/
def flip (e : Endpoint) : Endpoint := ⟨e.outgoing, e.incoming⟩

/-- This end is given up: the other one reads what is left and can write no more. -/
def drop (e : Endpoint) : Endpoint := ⟨e.incoming.close, e.outgoing.close⟩

end Endpoint

end DeskLink
