import DeskLink.Failure
import DeskLink.Message.Json
import DeskLink.Input.Queue
import DeskLink.Transport.Frame

/-!
# Failures as JSON

Diagnostics show a failure by the name of its cause and by its text. To name a failure, give the
cause and what belongs to it.
-/

namespace DeskLink

/-- The form of everything that went wrong: a cause and a text. -/
def Json.error (cause message : String) : Json :=
  .obj [("error", .str cause), ("message", .str message)]

def Version.ofJson? : Json → Option Version
  | .arr [.int major, .int minor] => some ⟨UInt8.ofNat major.toNat, UInt8.ofNat minor.toNat⟩
  | _ => none

namespace Failure

def name : Failure → String
  | versionMismatch .. => "VersionMismatch"
  | authFailed => "AuthFailed"
  | capacityExceeded => "CapacityExceeded"
  | messageTooLarge .. => "MessageTooLarge"
  | malformed _ => "MalformedMessage"
  | unknownKind _ => "UnknownMessageType"
  | timeout _ => "ProtocolTimeout"
  | lost _ => "ConnectionLost"
  | notFound _ => "SessionNotFound"

def toJson (f : Failure) : Json := .error f.name f.message

def ofJson? (j : Json) : Option Failure :=
  let nat (key : String) : Nat := (j.natAt? key).getD 0
  let detail := (j.strAt? "detail").getD ""
  match (j.strAt? "kind").getD "" with
  | "VersionMismatch" =>
    ((j.get? "local").bind Version.ofJson?).map fun own ↦
      versionMismatch own ((j.get? "remote").bind Version.ofJson?)
  | "AuthFailed" => some authFailed
  | "CapacityExceeded" => some capacityExceeded
  | "MessageTooLarge" => some (messageTooLarge (nat "size") (nat "limit"))
  | "MalformedMessage" => some (malformed detail)
  | "UnknownMessageType" => some (unknownKind (UInt8.ofNat (nat "type")))
  | "ProtocolTimeout" => some (timeout (nat "budget_ms"))
  | "ConnectionLost" => some (lost detail)
  | "SessionNotFound" => ((j.get? "session_id").bind SessionId.ofJson?).map notFound
  | _ => none

end Failure

def Envelope.DecodeError.toJson (e : Envelope.DecodeError) : Json :=
  match e with
  | .unknownKind _ => .error "UnknownMessageType" e.message
  | .malformed _ => .error "MalformedMessage" e.message

def PushError.toJson (e : PushError) : Json :=
  let cause := match e with
    | .full _ => "Full"
    | .closed _ => "Closed"
  .obj [("error", .str cause), ("message", .str e.message), ("returned", e.event.toJson)]

/-- An unusable stream as a value, with the failure that it means. -/
def TransportError.toJson (e : TransportError) (means : Failure) : Json :=
  let cause := match e with
    | .tooLarge .. => "MessageTooLarge"
    | .closed => "Closed"
    | .io _ => "Io"
  .obj [("error", .str cause), ("message", .str e.message), ("session_error", means.toJson)]

end DeskLink
