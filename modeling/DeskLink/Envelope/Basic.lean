import DeskLink.Message
import DeskLink.Text.Utf8

/-!
# Envelopes

A message travels in an envelope: the sender's major version, the message's kind, a flag byte, the
session's name when the flag says so, a sequence number, and the body. `Defect` lists everything
that can be wrong with one, and `Defect.message` words it.
-/

namespace DeskLink

/-- A message with its header. -/
structure Envelope where
  /-- The sender's major version. -/
  version : UInt8
  /-- Absent until a session is established. -/
  session : Option SessionId
  /-- Strictly increasing in each direction. -/
  seq : UInt32
  message : Message
  deriving DecidableEq

namespace Envelope

/-- What is wrong with the bytes of an envelope, or with a message that cannot be put into one. -/
inductive Defect where
  /-- A part with a fixed least size is shorter than that. -/
  | short (part : String) (need got : Nat)
  /-- A number does not fit before the end. -/
  | noNumber (width offset : Nat)
  /-- An identifier does not fit before the end. -/
  | noIdentifier (offset got : Nat)
  /-- A length does not fit before the end. -/
  | noLength (offset : Nat)
  /-- A field runs past the end. -/
  | overrun (length offset : Nat)
  /-- The flag byte has a bit without a meaning. -/
  | flags (b : UInt8)
  /-- A truth value is neither zero nor one. -/
  | truth (field : String) (b : UInt8)
  | authKind (b : UInt8)
  | closeReason (b : UInt8)
  | reportCode (b : UInt8)
  | inputKind (b : UInt8)
  | mouseButton (b : UInt8)
  /-- The name in a hello is not text. -/
  | name (fault : Utf8.Fault)
  /-- A verdict names a session without accepting, or accepts without naming one. -/
  | verdict
  /-- A field is too long for its length to be written. -/
  | oversize (field : String) (length : Nat)
  deriving DecidableEq, Repr

private def hexByte (b : UInt8) : String := "0x" ++ Bytes.upperHex b

def Defect.message : Defect → String
  | .short part need got => s!"{part}: need {need} bytes, got {got}"
  | .noNumber width offset => s!"need {width} bytes at offset {offset}"
  | .noIdentifier offset got => s!"need 16 bytes for UUID at offset {offset}, got {got}"
  | .noLength offset => s!"need 2 bytes for length at offset {offset}"
  | .overrun length offset => s!"field of length {length} at offset {offset} exceeds buffer"
  | .flags b => "unknown envelope flags " ++ hexByte b
  | .truth field b => s!"{field}: expected 0 or 1, got {b.toNat}"
  | .authKind b => "unknown auth kind " ++ hexByte b
  | .closeReason b => "unknown close reason " ++ hexByte b
  | .reportCode b => "unknown error code " ++ hexByte b
  | .inputKind b => "unknown input event kind " ++ hexByte b
  | .mouseButton b => "unknown mouse button " ++ hexByte b
  | .name fault => s!"hello name is not UTF-8: {fault.message}"
  | .verdict => "auth result must carry a session token exactly when accepted"
  | .oversize field length => s!"{field}: {length} bytes exceeds the u16 length prefix"

/-- Why bytes are not an envelope this library understands. -/
inductive DecodeError where
  /-- The kind is unassigned. Later versions may assign it, so the envelope is only skipped. -/
  | unknownKind (code : UInt8)
  /-- A part is missing or outside its domain. -/
  | malformed (defect : Defect)
  deriving DecidableEq, Repr

def DecodeError.message : DecodeError → String
  | .unknownKind code => "unknown message type: " ++ hexByte code
  | .malformed defect => s!"malformed message: {defect.message}"

end Envelope

end DeskLink
