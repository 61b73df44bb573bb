import DeskLink.Uuid
import DeskLink.Version
import DeskLink.Input.Event

/-!
# Messages

Everything two nodes say to each other. A connection opens with an exchange of `hello`s, a
challenge and its answer, and a verdict that names the session; from then on both sides send
heartbeats, acknowledge them, and pass input events, until one of them closes the session or
reports an error.

Each kind of message, reason, report code and button has a one-byte code on the wire; `ofCode?` is
the partial inverse of `code` for each of them.
-/

namespace DeskLink

/-! ## Codes -/

/-- The kinds of message. -/
inductive Kind where
  | hello | auth | authResult | heartbeat | heartbeatAck | close | report | input
  deriving DecidableEq, Repr

namespace Kind

def all : List Kind := [hello, auth, authResult, heartbeat, heartbeatAck, close, report, input]

def code : Kind → UInt8
  | hello => 0x01 | auth => 0x02 | authResult => 0x03 | heartbeat => 0x04 | heartbeatAck => 0x05
  | close => 0x06 | report => 0x07 | input => 0x10

def ofCode? (b : UInt8) : Option Kind := all.find? (·.code == b)

def name : Kind → String
  | hello => "Hello" | auth => "Auth" | authResult => "AuthResult" | heartbeat => "Heartbeat"
  | heartbeatAck => "HeartbeatAck" | close => "SessionClose" | report => "Error"
  | input => "InputEvent"

@[simp] theorem ofCode?_code (k : Kind) : ofCode? k.code = some k := by cases k <;> rfl

end Kind

/-- Why a session is being closed. -/
inductive CloseReason where
  | userInitiated | serverShutdown | protocolError | heartbeatTimeout
  deriving DecidableEq, Repr

namespace CloseReason

def all : List CloseReason := [userInitiated, serverShutdown, protocolError, heartbeatTimeout]

def code : CloseReason → UInt8
  | userInitiated => 1 | serverShutdown => 2 | protocolError => 3 | heartbeatTimeout => 4

def ofCode? (b : UInt8) : Option CloseReason := all.find? (·.code == b)

def name : CloseReason → String
  | userInitiated => "UserInitiated" | serverShutdown => "ServerShutdown"
  | protocolError => "ProtocolError" | heartbeatTimeout => "HeartbeatTimeout"

@[simp] theorem ofCode?_code (r : CloseReason) : ofCode? r.code = some r := by cases r <;> rfl

end CloseReason

/-- What an error report says went wrong. -/
inductive ReportCode where
  | versionMismatch | authFailed | capacityExceeded | messageTooLarge | malformedMessage
  | protocolTimeout | internal
  deriving DecidableEq, Repr

namespace ReportCode

def all : List ReportCode :=
  [versionMismatch, authFailed, capacityExceeded, messageTooLarge, malformedMessage,
    protocolTimeout, internal]

def code : ReportCode → UInt8
  | versionMismatch => 1 | authFailed => 2 | capacityExceeded => 3 | messageTooLarge => 4
  | malformedMessage => 5 | protocolTimeout => 6 | internal => 0xff

def ofCode? (b : UInt8) : Option ReportCode := all.find? (·.code == b)

def name : ReportCode → String
  | versionMismatch => "VersionMismatch" | authFailed => "AuthFailed"
  | capacityExceeded => "CapacityExceeded" | messageTooLarge => "MessageTooLarge"
  | malformedMessage => "MalformedMessage" | protocolTimeout => "ProtocolTimeout"
  | internal => "Internal"

@[simp] theorem ofCode?_code (c : ReportCode) : ofCode? c.code = some c := by cases c <;> rfl

end ReportCode

/-! ## Bodies -/

/-- The random challenge of one connection: thirty-two bytes. -/
structure Nonce where
  bytes : Bytes
  length_bytes : bytes.length = 32
  deriving DecidableEq

namespace Nonce

attribute [simp] length_bytes

/-- The nonce with these bytes, when there are thirty-two of them. -/
def ofBytes? (b : Bytes) : Option Nonce :=
  if h : b.length = 32 then some ⟨b, h⟩ else none

@[simp] theorem ofBytes?_bytes (n : Nonce) : ofBytes? n.bytes = some n := by simp [ofBytes?]

def zero : Nonce := ⟨List.replicate 32 0, by simp⟩

end Nonce

/-- Who a node says it is. -/
structure Identity where
  node : Uuid
  name : String
  capabilities : UInt32
  deriving DecidableEq

/-- The identity as status displays print it: the name, then the node's identifier. -/
def Identity.toText (i : Identity) : String := s!"{i.name} ({i.node})"

/-- Identity and version, announced by both sides. -/
structure Hello where
  version : Version
  identity : Identity
  deriving DecidableEq

/-- One leg of the proof that the client knows the secret. -/
inductive Auth where
  | challenge (nonce : Nonce)
  | response (credential : Bytes)
  deriving DecidableEq

/-- The server's answer to a credential. An honest one names a session exactly when it accepts. -/
structure Verdict where
  accepted : Bool
  session : Option SessionId
  deriving DecidableEq

/-- A fatal condition, told to the other side before closing. -/
structure Report where
  code : ReportCode
  description : String
  deriving DecidableEq

/-- What one node says to another. -/
inductive Message where
  | hello (h : Hello)
  | auth (a : Auth)
  | authResult (v : Verdict)
  | heartbeat (token : UInt64)
  | heartbeatAck (token : UInt64)
  | input (e : Event)
  | close (reason : CloseReason)
  | report (r : Report)
  deriving DecidableEq

def Message.kind : Message → Kind
  | .hello _ => .hello
  | .auth _ => .auth
  | .authResult _ => .authResult
  | .heartbeat _ => .heartbeat
  | .heartbeatAck _ => .heartbeatAck
  | .input _ => .input
  | .close _ => .close
  | .report _ => .report

end DeskLink
