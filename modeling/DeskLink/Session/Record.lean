import DeskLink.Message
import DeskLink.Session.Heartbeat

/-!
# Session records

What is known about an established session: who is on the other side, since when, how far the two
directions have counted, and the latest measured round trip. A running session publishes
`Snapshot`s, which are folded into its record. A snapshot without a measurement keeps the one
before.
-/

namespace DeskLink

/-- A report of progress from a running session. -/
structure Snapshot where
  session : SessionId
  /-- When the other side last proved that it is there. -/
  time : Instant
  rtt : Option Duration
  outboundSeq : UInt32
  inboundSeq : UInt32
  deriving DecidableEq

/-- What is known about one established session. -/
structure Record where
  session : SessionId
  peer : Identity
  version : Version
  establishedAt : Instant
  lastHeartbeatAt : Instant
  outboundSeq : UInt32
  inboundSeq : UInt32
  lastRtt : Option Duration
  deriving DecidableEq

namespace Record

/-- The record of a session that is established now. -/
def start (session : SessionId) (peer : Identity) (version : Version) (now : Instant) : Record :=
  ⟨session, peer, version, now, now, 0, 0, none⟩

/-- Folds a snapshot into the record. -/
def apply (r : Record) (s : Snapshot) : Record :=
  { r with
    lastHeartbeatAt := s.time
    outboundSeq := s.outboundSeq
    inboundSeq := s.inboundSeq
    lastRtt := s.rtt <|> r.lastRtt }

end Record

end DeskLink
