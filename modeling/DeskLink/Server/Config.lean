import DeskLink.Config.Shared
import DeskLink.Credential

/-!
# The server's configuration

    [server]
    bind_address = "0.0.0.0:24800"
    max_clients = 10
    name = "office-desktop"
    log_level = "info"

besides the tables `protocol` and `auth`. A file may be read without making a working server:
`check` says what is wrong with the values, in a fixed order.
-/

namespace DeskLink.Server

open DeskLink.Config

/-- What a server is configured by. -/
structure Config where
  bindAddress : String
  maxClients : Nat
  name : String
  logLevel : String
  tuning : Tuning
  secret : String
  deriving DecidableEq

namespace Config

/-- What is used where nothing is set. -/
def standard : Config := ⟨"0.0.0.0:24800", 10, "kvm-server", "info", .standard, ""⟩

instance : Inhabited Config := ⟨standard⟩

/-- The configuration with a table of the server's own settings. -/
def section? (c : Config) (v : Toml.Value) : Option Config := do
  match ← v.fields? ["bind_address", "max_clients", "name", "log_level"] with
  | [address, clients, name, level] =>
    some { c with
      bindAddress := ← textOr? c.bindAddress address
      maxClients := ← natOr? wide c.maxClients clients
      name := ← textOr? c.name name
      logLevel := ← textOr? c.logLevel level }
  | _ => none

/-- The configuration that a file describes. -/
def ofToml? (v : Toml.Value) : Option Config := do
  match ← v.fields? ["server", "protocol", "auth"] with
  | [own, protocol, auth] =>
    let c ← fieldOr? standard standard.section? own
    some { c with
      tuning := ← fieldOr? c.tuning Tuning.ofToml? protocol
      secret := ← fieldOr? c.secret secretOfToml? auth }
  | _ => none

def load : FileReply → Except LoadError Config := DeskLink.Config.load standard ofToml?

/-- What is wrong with the values, if anything; the first complaint counts. -/
def check (c : Config) : Except InvalidSetting Unit := do
  c.tuning.check
  if c.maxClients = 0 then .error ⟨"max_clients", "must be greater than zero"⟩
  else checkSecret c.secret

end Config

end DeskLink.Server
