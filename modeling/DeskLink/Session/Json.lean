import DeskLink.Failure.Json
import DeskLink.Session.Worker

/-!
# Sessions as JSON

How diagnostics show the progress and the end of sessions. Times are left out: they depend on the
machine, and only whether a round trip was measured is shown.
-/

namespace DeskLink

def Snapshot.toJson (s : Snapshot) : Json :=
  .obj [("rtt", .bool s.rtt.isSome), ("outbound_seq", .nat s.outboundSeq.toNat),
    ("inbound_seq", .nat s.inboundSeq.toNat)]

def Record.toJson (r : Record) : Json :=
  .obj [("session_id", r.session.toJson), ("peer", .str r.peer.name),
    ("state", .str "Established"), ("version", .str r.version.toText),
    ("inbound_seq", .nat r.inboundSeq.toNat), ("outbound_seq", .nat r.outboundSeq.toNat),
    ("rtt", .bool r.lastRtt.isSome)]

namespace Session

/-- The name of the side that ended a session. -/
def Initiator.name : Initiator → String
  | own => "Local"
  | peer => "Peer"

def End.toJson (e : End) : Json :=
  .obj [("initiator", .str e.initiator.name), ("reason", .str e.reason.name)]

def End.ofJson? (j : Json) : Option End := do
  let who ← j.strAt? "initiator"
  let reason ← (j.strAt? "reason").bind CloseReason.ofName?
  some ⟨if who = "Local" then .own else .peer, reason⟩

def endingToJson : Ending → Json
  | .ok e => e.toJson
  | .error why => why.toJson

end Session

end DeskLink
