import DeskLink.Json.Basic
import DeskLink.Tuning

/-!
# Tuning as JSON

A setting that an object leaves out keeps the value it has.
-/

namespace DeskLink

def InvalidSetting.toJson (i : InvalidSetting) : Json :=
  .obj [("error", .str "InvalidConfig"), ("field", .str i.field), ("message", .str i.message)]

/-- Settings that are right, or the complaint. -/
def InvalidSetting.resultToJson : Except InvalidSetting Unit → Json
  | .ok _ => .str "ok"
  | .error i => i.toJson

namespace Tuning

/-- The tuning that an object sets; the other values are those of `d`. -/
def ofJson (d : Tuning) (j : Json) : Tuning :=
  let nat (key : String) (default : Nat) : Nat :=
    (((j.get? key).bind Json.int?).map Int.toNat).getD default
  ⟨nat "heartbeat_interval_ms" d.heartbeatMs, nat "handshake_timeout_ms" d.handshakeMs,
    nat "max_frame_size" d.maxFrame, nat "input_queue_capacity" d.queueCapacity,
    nat "drain_timeout_ms" d.drainMs⟩

def toJson (t : Tuning) : Json :=
  .obj [("heartbeat_interval_ms", .nat t.heartbeatMs), ("handshake_timeout_ms", .nat t.handshakeMs),
    ("max_frame_size", .nat t.maxFrame), ("input_queue_capacity", .nat t.queueCapacity),
    ("drain_timeout_ms", .nat t.drainMs)]

end Tuning

end DeskLink
