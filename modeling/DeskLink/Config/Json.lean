import DeskLink.Client.Config
import DeskLink.Client.Json
import DeskLink.Server.Config

/-!
# Configuration as JSON

How diagnostics show a configuration: every value, what is wrong with them, what a node is told of
them, and whether it would start. A spread is shown by the bits of its double, since its text would
not tell every value from every other.
-/

namespace DeskLink

/-- A double as its sixteen hexadecimal digits. -/
def bitsToJson (x : Double) : Json := .str (Bytes.toHex (Bytes.ofNat 8 x.bits.toNat))

def Client.Backoff.toJson (p : Client.Backoff) : Json :=
  .obj [("base_delay_ms", .nat p.baseMs.toNat), ("max_delay_ms", .nat p.maxMs.toNat),
    ("jitter_bits", bitsToJson p.jitter),
    ("max_attempts", .ofOption (fun n ↦ .nat n.toNat) p.maxAttempts)]

/-- A node that would start, or what it would say instead. -/
def startsToJson (started : Json) : Except InvalidSetting Unit → Json
  | .ok _ => started
  | .error why => .str why.message

/-- A configuration that was loaded, or why there is none. -/
def Config.loadedToJson {α : Type} (f : α → Json) : Except Config.LoadError α → Json
  | .ok c => f c
  | .error .io => .obj [("error", .str "Io")]
  | .error .parse => .obj [("error", .str "Parse")]

/-- The server's configuration as a value. -/
def Server.Config.toJson (c : Server.Config) : Json :=
  .obj [("server", .obj [("bind_address", .str c.bindAddress), ("max_clients", .nat c.maxClients),
      ("name", .str c.name), ("log_level", .str c.logLevel)]),
    ("protocol", c.tuning.toJson), ("shared_secret", .str c.secret),
    ("validate", InvalidSetting.resultToJson c.check),
    ("settings", .obj [("name", .str c.name), ("max_clients", .nat c.maxClients),
      ("protocol", c.tuning.toJson)]),
    ("starts", startsToJson (.str "ok") c.tuning.check)]

/-- The client's configuration as a value. -/
def Client.Config.toJson (c : Client.Config) : Json :=
  .obj [("client", .obj [("server_address", .str c.serverAddress), ("name", .str c.name),
      ("log_level", .str c.logLevel), ("protocol_version", .str c.version.toText)]),
    ("protocol", c.tuning.toJson), ("reconnect", c.backoff.toJson),
    ("shared_secret", .str c.secret), ("validate", InvalidSetting.resultToJson c.check),
    ("settings", .obj [("name", .str c.name), ("version", .str c.version.toText),
      ("protocol", c.tuning.toJson), ("backoff", c.backoff.toJson)]),
    ("starts", startsToJson c.backoff.toJson (c.tuning.check.bind fun _ ↦ c.backoff.check))]

/-- The path of a configuration file as a value. -/
def Config.pathToJson : Option String → Json
  | some path => .str path
  | none => .error "NoPlatformConfigDir" Config.noDirectory

end DeskLink
