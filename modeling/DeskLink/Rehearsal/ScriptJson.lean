import DeskLink.Client.Json
import DeskLink.Rehearsal.Script

/-!
# Scripts as JSON

A script is an array of objects with one key each, which names the act; its value is what the act
needs. The notes of a step are an object with a member for each of their parts.
-/

namespace DeskLink

/-- A list of values, each in its own form. -/
def Json.list {α : Type} (f : α → Json) (l : List α) : Json := .arr (l.map f)

/-- The bytes that a text in hexadecimal stands for. -/
def Json.hex? (j : Json) : Option Bytes := j.str?.bind Bytes.ofHex?

/-- A secret under its key, in hexadecimal. -/
def Secret.ofJson? (j : Json) : Option Secret := ((j.get? "secret").bind Json.hex?).map Secret.mk

/-- A completed call: nothing, or why it failed. -/
def Failure.resultToJson : Except Failure Unit → Json
  | .ok _ => .str "ok"
  | .error why => why.toJson

/-- The answer of a queue to an event as a value. -/
def PushOutcome.resultToJson : Except PushError PushOutcome → Json
  | .ok outcome => .str outcome.name
  | .error why => why.toJson

namespace Rehearsal

/-- The tuning of rehearsals: heartbeats are far apart, so that only what is asked for happens. -/
def patient : Tuning := ⟨3600000, 5000, 1048576, 256, 100⟩

/-- The envelope that an object asks for, around a message. -/
def Draft.ofJson (j : Json) (m : Message) : Draft :=
  ⟨m, UInt8.ofNat ((j.natAt? "version").getD 1), (j.natAt? "seq").map UInt32.ofNat,
    (j.get? "session_id").map SessionId.ofJson?⟩

/-- The act, other than a batch, with this name. -/
def Act.ofMember? (key : String) (v : Json) : Option Act :=
  match key with
  | "msg" => ((v.get? "message").bind Message.ofJson?).map fun m ↦ .say (.ofJson v m)
  | "respond" => do
    some (.respond (← (v.strAt? "node_id").bind Uuid.parse?) (← Secret.ofJson? v) (.ofJson v))
  | "frame" => v.hex?.map .frame
  | "bytes" => v.hex?.map .bytes
  | "half_close" => some .halfClose
  | "hang_up" => some .hangUp
  | "wait_frame" => some .waitFrame
  | "wait_end" => some .waitEnd
  | "command" => (v.str?.bind CloseReason.ofName?).map .command
  | "drop_commands" => some .dropCommands
  | "push" => (Event.ofJson? v).map .push
  | "disconnect" => (SessionId.ofJson? v).map .disconnect
  | "status" => some .status
  | _ => none

def Act.ofJson? (j : Json) : Option Act := do
  match ← j.only? with
  | ("batch", .arr items) =>
    (items.mapM fun i ↦ (Json.only? i).bind fun (k, v) ↦ Act.ofMember? k v).map .batch
  | (k, v) => Act.ofMember? k v

def Stage.Sent.toJson : Stage.Sent → Json
  | .done outcome => .str outcome.name
  | .refused why => why.toJson
  | .nobody => .null
  | .pending => .str "pending"

mutual

def Answer.toJson : Answer → Json
  | .nothing => .null
  | .taken b => .bool b
  | .pushed r => PushOutcome.resultToJson r
  | .sent r => r.toJson
  | .closed (some r) => Failure.resultToJson r
  | .closed none => .str "pending"
  | .status s => s.toJson
  | .records rs => .list Record.toJson rs
  | .batch answers => .arr (Answer.allToJson answers)

def Answer.allToJson : List Answer → List Json
  | [] => []
  | a :: rest => a.toJson :: allToJson rest

end

/-- A frame as a value, with envelopes in a form of the reader's choice. -/
def frameToJson (view : Envelope → Json) : Except Envelope.DecodeError Envelope → Json
  | .ok e => view e
  | .error why => why.toJson

def Notes.toJson (view : Envelope → Json) (n : Notes) : Json :=
  .obj [("result", n.answer.toJson), ("frames", .list (frameToJson view) n.frames),
    ("injected", .list Event.toJson n.injected), ("progress", .list Snapshot.toJson n.progress),
    ("latency_samples", .nat n.latencies), ("active_sessions", .list Json.nat n.active),
    ("finished", .bool n.finished)]

end Rehearsal

end DeskLink
