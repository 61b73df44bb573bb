import DeskLink.Client.Guest
import DeskLink.Client.Reconnection
import DeskLink.Number.Reading
import DeskLink.Session.Json
import DeskLink.Tuning.Json

/-!
# Clients as JSON

How diagnostics show the settings of a client and its way through connections, and how settings
are given.
-/

namespace DeskLink

namespace Client

def Status.toJson (s : Status) : Json :=
  .obj [("connected", .bool s.connected), ("session_id", Json.ofOption SessionId.toJson s.session),
    ("rtt", .bool s.rtt.isSome), ("last_error", Json.ofOption Failure.toJson s.error)]

/-- The times that an object sets; the others are those of `d`. The spread is a text, and null in
place of a number of attempts sets no limit to them. -/
def Backoff.ofJson (d : Backoff) (j : Json) : Backoff where
  baseMs := ((j.natAt? "base_delay_ms").map UInt64.ofNat).getD d.baseMs
  maxMs := ((j.natAt? "max_delay_ms").map UInt64.ofNat).getD d.maxMs
  jitter := (((j.strAt? "jitter").bind Float.ofText?).map .ofFloat).getD d.jitter
  maxAttempts := match j.get? "max_attempts" with
    | some v => v.int?.map fun n ↦ UInt32.ofNat n.toNat
    | none => d.maxAttempts

def Reconnection.Event.toJson : Reconnection.Event → Json
  | established id => .obj [("established", id.toJson)]
  | lost why => .obj [("lost", why.toJson)]
  | retry attempt delay => .obj [("retry", .nat attempt), ("delay_ns", .nat delay)]
  | gaveUp attempts => .obj [("gave_up", .nat attempts)]

def Reconnection.resultToJson : Except Failure Reconnection.Outcome → Json
  | .ok .cancelled => .str "cancelled"
  | .ok (.closed e) => .obj [("closed", e.toJson)]
  | .error why => why.toJson

end Client

end DeskLink
