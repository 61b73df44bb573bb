import DeskLink.Client.Backoff
import DeskLink.Config.File
import DeskLink.Version

/-!
# Settings of both nodes

The parts of a configuration file that are the same for servers and clients, and those that stand
for a value of their own.

    [protocol]                       [auth]
    heartbeat_interval_ms = 30000    shared_secret = "correct horse battery staple"
-/

namespace DeskLink

open Config

def Tuning.ofToml? (v : Toml.Value) : Option Tuning := do
  let names := ["heartbeat_interval_ms", "handshake_timeout_ms", "max_frame_size",
    "input_queue_capacity", "drain_timeout_ms"]
  let d := Tuning.standard
  match ← v.fields? names with
  | [heartbeat, handshake, frame, queue, drain] =>
    some ⟨← natOr? wide d.heartbeatMs heartbeat, ← natOr? wide d.handshakeMs handshake,
      ← natOr? wide d.maxFrame frame, ← natOr? wide d.queueCapacity queue,
      ← natOr? wide d.drainMs drain⟩
  | _ => none

/-- The version that a table describes; both numbers must be there. -/
def Version.ofToml? (v : Toml.Value) : Option Version := do
  match ← v.fields? ["major", "minor"] with
  | [some major, some minor] =>
    some ⟨UInt8.ofNat (← major.natBelow? 256), UInt8.ofNat (← minor.natBelow? 256)⟩
  | _ => none

def Client.Backoff.ofToml? (v : Toml.Value) : Option Client.Backoff := do
  let d := Client.Backoff.standard
  match ← v.fields? ["base_delay_ms", "max_delay_ms", "jitter", "max_attempts"] with
  | [base, longest, jitter, attempts] =>
    some {
      baseMs := UInt64.ofNat (← natOr? wide d.baseMs.toNat base)
      maxMs := UInt64.ofNat (← natOr? wide d.maxMs.toNat longest)
      jitter := ← fieldOr? d.jitter Toml.Value.real? jitter
      maxAttempts := ← fieldOr? d.maxAttempts
        (fun v ↦ (v.natBelow? narrow).map fun n ↦ some (UInt32.ofNat n)) attempts }
  | _ => none

namespace Config

/-- The secret in the table of credentials. -/
def secretOfToml? (v : Toml.Value) : Option String := do
  match ← v.fields? ["shared_secret"] with
  | [secret] => textOr? "" secret
  | _ => none

/-- Complains about a secret that is not set. -/
def checkSecret (secret : String) : Except InvalidSetting Unit :=
  if secret.isEmpty then .error ⟨"shared_secret", "must be set in [auth] or on the command line"⟩
  else .ok ()

end Config

end DeskLink
