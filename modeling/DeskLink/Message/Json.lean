import DeskLink.Envelope.Basic
import DeskLink.Input.EventJson

/-!
# Messages as JSON

Diagnostics show a message as an object with one key, which names its kind; under it stand the
fields, each by its own name. Bytes are arrays of numbers and identifiers are texts. `ofJson?`
reads this form back: fields that a reader can do without may be left out.
-/

namespace DeskLink

def Json.bytes (b : Bytes) : Json := .arr (b.map fun x ↦ .nat x.toNat)

/-- The bytes that an array of numbers stands for. -/
def Json.bytes? (j : Json) : Option Bytes :=
  j.arr?.bind (·.mapM fun x ↦ (x.natBelow? 256).map UInt8.ofNat)

def Json.natAt? (j : Json) (key : String) : Option Nat :=
  ((j.get? key).bind Json.int?).map Int.toNat

def Json.strAt? (j : Json) (key : String) : Option String := (j.get? key).bind Json.str?

/-- The only member of an object with one. -/
def Json.only? : Json → Option (String × Json)
  | .obj [m] => some m
  | _ => none

/-- The identifier that a text stands for. -/
def SessionId.ofJson? (j : Json) : Option SessionId := (j.str?.bind Uuid.parse?).map SessionId.mk

def SessionId.toJson (id : SessionId) : Json := .str id.toText

def CloseReason.ofName? (s : String) : Option CloseReason := CloseReason.all.find? (·.name == s)

def ReportCode.ofName? (s : String) : Option ReportCode := ReportCode.all.find? (·.name == s)

namespace Identity

/-- The members that describe an identity. -/
def members (i : Identity) : List (String × Json) :=
  [("node_id", .str i.node.toText), ("name", .str i.name),
    ("capabilities", .nat i.capabilities.toNat)]

/-- The identity that an object describes; only the node must be named. -/
def ofJson? (j : Json) : Option Identity := do
  some ⟨← (j.strAt? "node_id").bind Uuid.parse?, (j.strAt? "name").getD "",
    UInt32.ofNat ((j.natAt? "capabilities").getD 0)⟩

end Identity

/-- A report as a code and a description. -/
def Report.ofJson? (j : Json) : Option Report := do
  some ⟨← (j.strAt? "code").bind ReportCode.ofName?, (j.strAt? "description").getD ""⟩

namespace Message

def fields : Message → Json
  | hello h => .obj (("protocol_version", .obj [("major", .nat h.version.major.toNat),
      ("minor", .nat h.version.minor.toNat)]) :: h.identity.members)
  | auth (.challenge n) => .obj [("Challenge", .obj [("nonce", .bytes n.bytes)])]
  | auth (.response c) => .obj [("Response", .obj [("credential", .bytes c)])]
  | authResult v => .obj [("accepted", .bool v.accepted),
      ("session_id", Json.ofOption SessionId.toJson v.session)]
  | heartbeat t | heartbeatAck t => .obj [("token", .nat t.toNat)]
  | input e => e.toJson
  | close r => .obj [("reason", .str r.name)]
  | report r => .obj [("code", .str r.code.name), ("description", .str r.description)]

def toJson (m : Message) : Json := .obj [(m.kind.name, m.fields)]

def helloOfJson? (j : Json) : Option Hello := do
  let v ← j.get? "protocol_version"
  let part (key : String) : UInt8 := UInt8.ofNat ((v.natAt? key).getD 0)
  some ⟨⟨part "major", part "minor"⟩, ← Identity.ofJson? j⟩

/-- The leg of the authentication with this name. -/
def authOfJson? (leg : String) (j : Json) : Option Auth :=
  match leg with
  | "Challenge" => (((j.get? "nonce").bind Json.bytes?).bind Nonce.ofBytes?).map .challenge
  | "Response" => ((j.get? "credential").bind Json.bytes?).map .response
  | _ => none

def ofJson? (j : Json) : Option Message := do
  let (kind, v) ← j.only?
  let token := UInt64.ofNat ((v.natAt? "token").getD 0)
  match kind with
  | "Hello" => (helloOfJson? v).map hello
  | "Auth" => (v.only?.bind fun (leg, v) ↦ authOfJson? leg v).map auth
  | "AuthResult" =>
    let accepted := ((v.get? "accepted").bind Json.bool?).getD false
    some (authResult ⟨accepted, (v.get? "session_id").bind SessionId.ofJson?⟩)
  | "Heartbeat" => some (heartbeat token)
  | "HeartbeatAck" => some (heartbeatAck token)
  | "SessionClose" => ((v.strAt? "reason").bind CloseReason.ofName?).map close
  | "Error" => (Report.ofJson? v).map report
  | "InputEvent" => (Event.ofJson? v).map input
  | _ => none

end Message

def Envelope.toJson (e : Envelope) : Json :=
  .obj [("version", .nat e.version.toNat), ("session_id", Json.ofOption SessionId.toJson e.session),
    ("seq", .nat e.seq.toNat), ("message", e.message.toJson)]

end DeskLink
