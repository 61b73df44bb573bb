import DeskLink.Envelope.Decoding

/-!
# Failures

Everything that can go wrong with a session, as its users see it. A failure is *fatal* when it
ends the session, *retryable* when connecting again may help, and *reportable* when there is a
code under which the other side is told about it before the connection closes. Only a lost
connection is retryable, and it is not reportable: there is nobody left to tell.

`ofReport` is the way back, from a report the other side sent to a failure on this side.
-/

namespace DeskLink

/-- What can go wrong with a session. -/
inductive Failure where
  /-- The two nodes speak different major versions; the other one's may be unknown. -/
  | versionMismatch (own : Version) (peer : Option Version)
  | authFailed
  | capacityExceeded
  | messageTooLarge (size limit : Nat)
  | malformed (detail : String)
  /-- An envelope of an unassigned kind was skipped. -/
  | unknownKind (code : UInt8)
  | timeout (budgetMs : Nat)
  | lost (detail : String)
  | notFound (session : SessionId)
  deriving DecidableEq

namespace Failure

def message : Failure → String
  | versionMismatch own peer =>
    let remote := (peer.map Version.toText).getD "unknown"
    s!"protocol version mismatch: local {own}, remote {remote}"
  | authFailed => "authentication failed"
  | capacityExceeded => "server is at capacity"
  | messageTooLarge size limit => s!"message of {size} bytes exceeds the {limit} byte limit"
  | malformed detail => s!"malformed message: {detail}"
  | unknownKind code => "unknown message type 0x" ++ Bytes.upperHex code
  | timeout budgetMs => s!"handshake did not complete within {budgetMs} ms"
  | lost detail => s!"connection lost: {detail}"
  | notFound session => s!"session {session} not found"

/-- Whether the failure ends the session. -/
def fatal : Failure → Bool
  | unknownKind _ | notFound _ => false
  | _ => true

/-- Whether connecting again may help. -/
def retryable : Failure → Bool
  | lost _ => true
  | _ => false

/-- The code under which the other side is told. -/
def code? : Failure → Option ReportCode
  | versionMismatch .. => some .versionMismatch
  | authFailed => some .authFailed
  | capacityExceeded => some .capacityExceeded
  | messageTooLarge .. => some .messageTooLarge
  | malformed _ => some .malformedMessage
  | timeout _ => some .protocolTimeout
  | unknownKind _ | lost _ | notFound _ => none

/-- The report that tells the other side, when there is one. -/
def report? (f : Failure) : Option Report := f.code?.map (⟨·, f.message⟩)

/-- The failure that a report from the other side means here. -/
def ofReport (own : Version) (r : Report) : Failure :=
  match r.code with
  | .versionMismatch => versionMismatch own none
  | .authFailed => authFailed
  | .capacityExceeded => capacityExceeded
  | .messageTooLarge => malformed s!"peer rejected an oversized frame: {r.description}"
  | .malformedMessage => malformed s!"peer rejected a frame: {r.description}"
  | .protocolTimeout => timeout 0
  | .internal => lost s!"peer failed: {r.description}"

/-- The failure that an unwritable message means. -/
def ofDefect (d : Envelope.Defect) : Failure := malformed d.message

end Failure

end DeskLink
