import DeskLink.Session.Heartbeat

/-!
# Tuning of the protocol

Timing and sizing that both nodes set for themselves. `check` refuses the values under which the
protocol could not run at all, in a fixed order, so that the first one that is wrong is named.
-/

namespace DeskLink

/-- A setting outside its range. -/
structure InvalidSetting where
  field : String
  reason : String
  deriving DecidableEq, Repr

/-- The complaint in words; the name stands between backquotes. -/
def InvalidSetting.message (i : InvalidSetting) : String :=
  "invalid configuration value for \x60" ++ i.field ++ "\x60: " ++ i.reason

/-- Timing and sizing. -/
structure Tuning where
  /-- Milliseconds between heartbeats; twice as long without an answer ends a session. -/
  heartbeatMs : Nat
  /-- Milliseconds that a whole handshake may take. -/
  handshakeMs : Nat
  /-- The largest frame, without its length. -/
  maxFrame : Nat
  /-- Events that may wait to be sent. -/
  queueCapacity : Nat
  /-- Milliseconds that a farewell may take. -/
  drainMs : Nat
  deriving DecidableEq, Repr

namespace Tuning

/-- The values used where nothing is set. -/
def standard : Tuning := ⟨30000, 1000, 1048576, 256, 250⟩

instance : Inhabited Tuning := ⟨standard⟩

/-- The least frame limit: every message of a handshake is meant to fit. -/
def leastFrame : Nat := 512

/-- The greatest frame limit: a length is written in four bytes. -/
def greatestFrame : Nat := 4294967295

/-- What is wrong with the values, if anything; the first complaint counts. -/
def check (t : Tuning) : Except InvalidSetting Unit :=
  let zero (field : String) : InvalidSetting := ⟨field, "must be greater than zero"⟩
  if t.heartbeatMs = 0 then .error (zero "heartbeat_interval_ms")
  else if t.handshakeMs = 0 then .error (zero "handshake_timeout_ms")
  else if t.queueCapacity = 0 then .error (zero "input_queue_capacity")
  else if t.maxFrame < leastFrame then
    let size := t.maxFrame
    .error ⟨"max_frame_size", s!"{size} is below the 512 byte minimum"⟩
  else if greatestFrame < t.maxFrame then
    .error ⟨"max_frame_size", "does not fit the u32 length prefix"⟩
  else .ok ()

def heartbeat (t : Tuning) : Duration := .ofMillis t.heartbeatMs

/-- The budget of a handshake. -/
def handshake (t : Tuning) : Duration := .ofMillis t.handshakeMs

/-- The time for a farewell. -/
def drain (t : Tuning) : Duration := .ofMillis t.drainMs

end Tuning

end DeskLink
