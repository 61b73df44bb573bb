import DeskLink.Failure
import DeskLink.Sequence
import DeskLink.Transport.Frame

/-!
# Links

A link turns the frames of one connection into messages and back. It numbers what it sends, and it
drops what it must not hand on: frames of unassigned kinds, frames for another session once it is
bound to one, and frames whose number is not above all accepted ones. Dropping changes nothing in
the link.

A number is used up by every attempt to send, whether or not the message goes out, so that no
number ever stands for two messages.
-/

namespace DeskLink

/-- The failure that an unreadable or unwritable stream means. -/
def Failure.ofTransport : TransportError → Failure
  | .tooLarge size limit => messageTooLarge size limit
  | .closed => lost "stream closed by peer"
  | .io text => lost text

/-- One end of a connection, seen as messages. -/
structure Link where
  /-- The major version written into every envelope. -/
  version : UInt8
  reader : Frame.Reader
  /-- The session that every envelope names, once there is one. -/
  binding : Option SessionId
  outbound : Sequence.Counter
  inbound : Sequence.Guard
  /-- Bytes of all frames sent completely. -/
  bytesSent : Nat
  /-- Bytes read. -/
  bytesReceived : Nat
  deriving DecidableEq

namespace Link

def new (version : UInt8) (limit : Nat) : Link :=
  ⟨version, .new limit, none, .start, .start, 0, 0⟩

/-- The limit for frames in both directions. -/
def limit (l : Link) : Nat := l.reader.limit

def bind (l : Link) (id : SessionId) : Link := { l with binding := some id }

/-! ## Sending -/

/-- The envelope that a message travels in when it is sent under this number. -/
def envelope (l : Link) (seq : UInt32) (m : Message) : Envelope := ⟨l.version, l.binding, seq, m⟩

/-- The frame of a message under this number. -/
def frameOf (l : Link) (seq : UInt32) (m : Message) : Except Failure Frame.Transmission := do
  let body ← ((l.envelope seq m).encode).mapError Failure.ofDefect
  (Frame.Transmission.start l.limit body).mapError Failure.ofTransport

/-- Starts sending a message: its number and the frame to write. -/
def prepare (l : Link) (m : Message) : Except Failure (UInt32 × Frame.Transmission) × Link :=
  match l.outbound.next? with
  | none => (.error (.lost "outbound sequence space exhausted"), l)
  | some (seq, outbound) => ((l.frameOf seq m).map (seq, ·), { l with outbound })

/-- Counts a frame that went out completely. -/
def sent (l : Link) (size : Nat) : Link := { l with bytesSent := l.bytesSent + size }

/-! ## Receiving -/

/-- What to do with an envelope: the link and the message to hand on, or nothing to drop it. -/
def pass? (l : Link) (e : Envelope) : Option (Message × Link) :=
  if l.binding.isSome ∧ e.session ≠ l.binding then none
  else (l.inbound.accept? e.seq).map fun inbound ↦ (e.message, { l with inbound })

/-- What a frame means: a message, or nothing when it is dropped. -/
def interpret (l : Link) (body : Bytes) : Except Failure (Option Message × Link) :=
  match Envelope.decode body with
  | .error (.malformed defect) => .error (.malformed defect.message)
  | .error (.unknownKind _) => .ok (none, l)
  | .ok e =>
    match l.pass? e with
    | some (m, l) => .ok (some m, l)
    | none => .ok (none, l)

/-- How one attempt to go on with a receipt ends. -/
inductive Arrival where
  /-- Nothing has come. -/
  | blocked
  /-- Some bytes came; no frame has been looked at. -/
  | read (count : Nat)
  /-- A frame came: a message, or nothing when it was dropped. -/
  | frame (m : Option Message)
  | failed (why : Failure)
  deriving DecidableEq, Inhabited

/-- Goes on with a receipt: by the next frame in the buffer, or else by one read. -/
def receive (l : Link) (reply : ReadReply) : Arrival × Link :=
  match l.reader.takeFrame with
  | .error why => (.failed (.ofTransport why), l)
  | .ok (some (body, reader)) =>
    let l := { l with reader }
    match l.interpret body with
    | .ok (m, l) => (.frame m, l)
    | .error why => (.failed why, l)
  | .ok none =>
    match reply with
    | .notReady => (.blocked, l)
    | .failed text => (.failed (.ofTransport (.io text)), l)
    | .data [] => (.failed (.ofTransport .closed), l)
    | .data b =>
      (.read b.length,
        { l with reader := l.reader.feed b, bytesReceived := l.bytesReceived + b.length })

end Link

end DeskLink
