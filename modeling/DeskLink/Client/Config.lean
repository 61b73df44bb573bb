import DeskLink.Config.Shared
import DeskLink.Credential
import DeskLink.Text.Blank

/-!
# The client's configuration

    [client]
    server_address = "192.168.1.10:24800"
    name = "laptop"
    log_level = "info"

    [reconnect]
    base_delay_ms = 250
    max_delay_ms = 5000
    jitter = 0.1

besides the tables `protocol` and `auth`. A file may be read without making a working client:
`check` says what is wrong with the values, in a fixed order.
-/

namespace DeskLink.Client

open DeskLink.Config

/-- What a client is configured by. -/
structure Config where
  serverAddress : String
  name : String
  logLevel : String
  /-- The version that it announces. -/
  version : Version
  tuning : Tuning
  backoff : Backoff
  secret : String

namespace Config

/-- What is used where nothing is set. -/
def standard : Config :=
  ⟨"127.0.0.1:24800", "kvm-client", "info", .current, .standard, .standard, ""⟩

instance : Inhabited Config := ⟨standard⟩

/-- The configuration with a table of the client's own settings. -/
def section? (c : Config) (v : Toml.Value) : Option Config := do
  match ← v.fields? ["server_address", "name", "log_level", "protocol_version"] with
  | [address, name, level, version] =>
    some { c with
      serverAddress := ← textOr? c.serverAddress address
      name := ← textOr? c.name name
      logLevel := ← textOr? c.logLevel level
      version := ← fieldOr? c.version Version.ofToml? version }
  | _ => none

/-- The configuration that a file describes. -/
def ofToml? (v : Toml.Value) : Option Config := do
  match ← v.fields? ["client", "protocol", "reconnect", "auth"] with
  | [own, protocol, reconnect, auth] =>
    let c ← fieldOr? standard standard.section? own
    some { c with
      tuning := ← fieldOr? c.tuning Tuning.ofToml? protocol
      backoff := ← fieldOr? c.backoff Backoff.ofToml? reconnect
      secret := ← fieldOr? c.secret secretOfToml? auth }
  | _ => none

def load : FileReply → Except LoadError Config := DeskLink.Config.load standard ofToml?

/-- What is wrong with the values, if anything; the first complaint counts. -/
def check (c : Config) : Except InvalidSetting Unit := do
  c.tuning.check
  c.backoff.check
  if (trimBlanks c.serverAddress).isEmpty then .error ⟨"server_address", "must not be empty"⟩
  else checkSecret c.secret

end Config

end DeskLink.Client
