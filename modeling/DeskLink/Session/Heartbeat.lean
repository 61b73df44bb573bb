/-!
# Heartbeats

A session's worker sends a heartbeat every interval and expects acknowledgements. `Monitor` is
the bookkeeping: told the time, it says whether a heartbeat is due or the other side counts as
gone. An acknowledgement of any heartbeat ever sent proves that the other side is alive; one of
the latest heartbeat, the first time it comes, also measures the round trip.

    established        + interval           + 2 · interval
        |------------------|--------------------|
     last ack         heartbeat due        no ack: stale

Instants and durations are whole numbers of one unit of time, on one axis.
-/

namespace DeskLink

/-- A point on the time axis, in nanoseconds from its start. -/
abbrev Instant := Nat

/-- A length of time in nanoseconds. -/
abbrev Duration := Nat

def Duration.ofMillis (n : Nat) : Duration := n * 1000000

def Duration.millis (d : Duration) : Nat := d / 1000000

namespace Heartbeat

/-- What is due at some instant. -/
inductive Due where
  | nothing
  /-- A heartbeat with this token. -/
  | beat (token : Nat)
  /-- There was no acknowledgement for twice the interval. -/
  | stale (silent : Duration)
  deriving DecidableEq, Repr

/-- The state of the bookkeeping. -/
structure Monitor where
  interval : Duration
  /-- When the last valid acknowledgement came, or the session began. -/
  lastAck : Instant
  nextBeat : Instant
  /-- The latest heartbeat and when it was sent, until it is acknowledged. -/
  outstanding : Option (Nat × Instant)
  lastToken : Nat
  lastRtt : Option Duration
  deriving DecidableEq, Repr

namespace Monitor

def start (interval : Duration) (now : Instant) : Monitor :=
  ⟨interval, now, now + interval, none, 0, none⟩

/-- The instant from which the other side counts as gone. -/
def staleAt (m : Monitor) : Instant := m.lastAck + m.interval * 2

/-- The earliest instant at which anything can be due. -/
def nextWakeup (m : Monitor) : Instant := min m.nextBeat m.staleAt

/-- What is due now. -/
def poll (m : Monitor) (now : Instant) : Due × Monitor :=
  if m.staleAt ≤ now then (.stale (now - m.lastAck), m)
  else if m.nextBeat ≤ now then
    let token := m.lastToken + 1
    (.beat token,
      { m with lastToken := token, outstanding := some (token, now), nextBeat := now + m.interval })
  else (.nothing, m)

/-- Records an acknowledgement; gives the round trip when it measures one. -/
def onAck (m : Monitor) (token : Nat) (now : Instant) : Option Duration × Monitor :=
  if token = 0 ∨ m.lastToken < token then (none, m)
  else
    let alive := { m with lastAck := now }
    match m.outstanding with
    | some (expected, sent) =>
      if expected = token then
        (some (now - sent), { alive with outstanding := none, lastRtt := some (now - sent) })
      else (none, alive)
    | none => (none, alive)

end Monitor

end Heartbeat

end DeskLink
