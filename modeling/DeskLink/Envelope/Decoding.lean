import DeskLink.Envelope.Encoding

/-!
# Reading envelopes

Each body is read field by field at fixed offsets, and the first thing that is wrong decides the
error. Bytes left over after a complete body are ignored, so that later minor versions can append
fields. The kind is looked at only after the whole header has been read: a header that is cut off
is malformed whatever its kind.
-/

namespace DeskLink.Envelope

/-! ## Fields -/

/-- Refuses a part that is shorter than its least size. -/
def need (b : Bytes) (least : Nat) (part : String) : Except Defect Unit :=
  if b.length < least then .error (.short part least b.length) else .ok ()

/-- The byte at an offset inside a part whose least size has been checked. -/
def byteAt (b : Bytes) (offset : Nat) : UInt8 := b.getD offset 0

/-- The number of this many bytes at an offset. -/
def numberAt (b : Bytes) (offset width : Nat) : Except Defect Nat :=
  match b.slice? offset width with
  | some s => .ok s.toNat
  | none => .error (.noNumber width offset)

/-- The identifier at an offset. -/
def identifierAt (b : Bytes) (offset : Nat) : Except Defect Uuid :=
  match (b.slice? offset 16).bind Uuid.ofBytes? with
  | some u => .ok u
  | none => .error (.noIdentifier offset (b.length - offset))

/-- The field behind the length at an offset. -/
def fieldAt (b : Bytes) (offset : Nat) : Except Defect Bytes :=
  match b.slice? offset 2 with
  | none => .error (.noLength offset)
  | some size =>
    match b.slice? (offset + 2) size.toNat with
    | some s => .ok s
    | none => .error (.overrun size.toNat (offset + 2))

def truthOf (field : String) (b : UInt8) : Except Defect Bool :=
  if b = 0 then .ok false else if b = 1 then .ok true else .error (.truth field b)

/-- A code looked up in its table. -/
def lookUp {α : Type} (table : UInt8 → Option α) (defect : UInt8 → Defect) (b : UInt8) :
    Except Defect α :=
  match table b with
  | some a => .ok a
  | none => .error (defect b)

/-! ## Bodies -/

def decodeHello (b : Bytes) : Except Defect Hello := do
  need b 24 "hello"
  let capabilities ← numberAt b 2 4
  let node ← identifierAt b 6
  let field ← fieldAt b 22
  let name ← (Utf8.decode field).mapError .name
  pure ⟨⟨byteAt b 0, byteAt b 1⟩, ⟨node, name, UInt32.ofNat capabilities⟩⟩

/-- Reads a challenge or the answer to one. -/
def decodeAuth (b : Bytes) : Except Defect Auth := do
  need b 1 "auth"
  if byteAt b 0 = 1 then
    need b 33 "auth challenge"
    match Nonce.ofBytes? ((b.drop 1).take 32) with
    | some nonce => pure (.challenge nonce)
    | none => throw (.short "auth challenge" 33 b.length)
  else if byteAt b 0 = 2 then
    let credential ← fieldAt b 1
    pure (.response credential)
  else throw (.authKind (byteAt b 0))

/-- Reads a verdict, and refuses one that contradicts itself. -/
def decodeVerdict (b : Bytes) : Except Defect Verdict := do
  need b 2 "auth result"
  let accepted ← truthOf "auth result accepted" (byteAt b 0)
  let named ← truthOf "auth result session flag" (byteAt b 1)
  let session ← if named then (identifierAt b 2).map (some ⟨·⟩) else pure none
  if accepted = session.isSome then pure ⟨accepted, session⟩ else throw .verdict

def decodeKey (b : Bytes) : Except Defect Event := do
  need b 13 "keyboard event"
  let keyCode ← numberAt b 1 2
  let pressed ← truthOf "keyboard pressed" (byteAt b 3)
  let timestamp ← numberAt b 5 8
  pure (.keyboard ⟨UInt16.ofNat keyCode, pressed, ⟨byteAt b 4⟩, UInt64.ofNat timestamp⟩)

def decodeMouse (b : Bytes) : Except Defect Event := do
  need b 21 "mouse event"
  let button ←
    if byteAt b 9 = 0 then pure none
    else (lookUp MouseButton.ofCode? .mouseButton (byteAt b 9)).map some
  let x ← numberAt b 1 4
  let y ← numberAt b 5 4
  let pressed ← truthOf "mouse pressed" (byteAt b 10)
  let wheel ← numberAt b 11 2
  let timestamp ← numberAt b 13 8
  pure (.mouse ⟨(UInt32.ofNat x).toInt32, (UInt32.ofNat y).toInt32, button, pressed,
    (UInt16.ofNat wheel).toInt16, UInt64.ofNat timestamp⟩)

def decodeEvent (b : Bytes) : Except Defect Event := do
  need b 1 "input event"
  if byteAt b 0 = 1 then decodeKey b
  else if byteAt b 0 = 2 then decodeMouse b
  else throw (.inputKind (byteAt b 0))

def decodeClose (b : Bytes) : Except Defect CloseReason := do
  need b 1 "session close"
  lookUp CloseReason.ofCode? .closeReason (byteAt b 0)

/-- Reads an error report. A garbled description must not hide the code, so it is read lossily. -/
def decodeReport (b : Bytes) : Except Defect Report := do
  need b 3 "error"
  let code ← lookUp ReportCode.ofCode? .reportCode (byteAt b 0)
  let description ← fieldAt b 1
  pure ⟨code, Utf8.decodeLossy description⟩

def decodeToken (b : Bytes) : Except Defect UInt64 :=
  (numberAt b 0 8).map UInt64.ofNat

/-- Reads the body of a message of this kind. -/
def decodeBody (kind : Kind) (b : Bytes) : Except Defect Message :=
  match kind with
  | .hello => (decodeHello b).map .hello
  | .auth => (decodeAuth b).map .auth
  | .authResult => (decodeVerdict b).map .authResult
  | .heartbeat => (decodeToken b).map .heartbeat
  | .heartbeatAck => (decodeToken b).map .heartbeatAck
  | .input => (decodeEvent b).map .input
  | .close => (decodeClose b).map .close
  | .report => (decodeReport b).map .report

/-! ## Headers -/

/-- What stands before the body. -/
structure Header where
  version : UInt8
  code : UInt8
  session : Option SessionId
  seq : UInt32
  /-- Where the body begins. -/
  length : Nat
  deriving DecidableEq

def decodeHeader (b : Bytes) : Except Defect Header := do
  need b 7 "envelope header"
  let flags := byteAt b 2
  if flags ≠ 0 ∧ flags ≠ sessionFlag then throw (.flags flags)
  let session ← if flags = sessionFlag then (identifierAt b 3).map (some ⟨·⟩) else pure none
  let offset := if flags = sessionFlag then 19 else 3
  let seq ← numberAt b offset 4
  pure ⟨byteAt b 0, byteAt b 1, session, UInt32.ofNat seq, offset + 4⟩

/-- Reads one envelope from the bytes of exactly one frame. -/
def decode (b : Bytes) : Except DecodeError Envelope := do
  let header ← (decodeHeader b).mapError .malformed
  match Kind.ofCode? header.code with
  | none => throw (.unknownKind header.code)
  | some kind =>
    let message ← (decodeBody kind (b.drop header.length)).mapError .malformed
    pure ⟨header.version, header.session, header.seq, message⟩

end DeskLink.Envelope
