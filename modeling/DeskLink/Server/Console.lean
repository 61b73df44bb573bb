import DeskLink.Console.Request
import DeskLink.Server.Host

/-!
# The server's console

What a server can be asked for by automation. Every command is carried out at once. `send_input`
leaves an event where captured input is left, so that it goes the same way.
-/

namespace DeskLink.Server.Console

open DeskLink.Console

/-- What the server is asked for. -/
inductive Command where
  /-- The number of sessions. -/
  | active
  /-- The sessions, oldest first. -/
  | sessions
  /-- Numbers about all connections. -/
  | stats
  | disconnect (id : SessionId)
  /-- Pins a session, or none. -/
  | focus (id : Option SessionId)
  | input (e : Event)

def names : List String :=
  ["get_active_sessions", "list_sessions", "connection_stats", "disconnect", "set_focus",
    "send_input"]

def Command.ofRequest (r : Request) : Except Complaint Command :=
  match r.command with
  | "get_active_sessions" => .ok .active
  | "list_sessions" => .ok .sessions
  | "connection_stats" => .ok .stats
  | "disconnect" => (textArgument "session_id" r.args).bind fun s ↦
    (sessionNamed s).map .disconnect
  | "set_focus" => (optionalArgument "session_id" r.args).bind fun s ↦ match s with
    | some s => (sessionNamed s).map fun id ↦ .focus (some id)
    | none => .ok (.focus none)
  | "send_input" => (eventArgument r.args).map .input
  | name => .error (.command name)

/-- A server and what has been left as captured input. -/
structure Desk where
  host : Host
  now : Instant
  /-- Whether anybody takes captured input. -/
  captureOpen : Bool
  captured : List Event

def sessionToJson (now : Instant) (r : Record) : Json :=
  .obj [("session_id", r.session.toJson), ("peer_name", .str r.peer.name),
    ("node_id", .str r.peer.node.toText), ("protocol_version", .str r.version.toText),
    ("connected_secs", .nat (Duration.millis (now - r.establishedAt) / 1000)),
    ("last_rtt_ms", .ofOption (fun d ↦ .nat (Duration.millis d)) r.lastRtt),
    ("outbound_seq", .nat r.outboundSeq.toNat), ("inbound_seq", .nat r.inboundSeq.toNat)]

def statsToJson (h : Host) : Json :=
  .obj [("active_session_count", .nat h.registry.active),
    ("last_rtt_ms", .ofOption (fun d ↦ .nat (Duration.millis d)) h.registry.latestRtt),
    ("bytes_sent", .nat h.bytesSent), ("bytes_received", .nat h.bytesReceived)]

/-- A desk whose server has changed, or the complaint. -/
def Desk.afterwards (d : Desk) : Except Failure Host → Reply × Desk
  | .ok host => (.ok .null, { d with host })
  | .error why => (.error (.failure why), d)

def Desk.perform (d : Desk) : Command → Reply × Desk
  | .active => (.ok (.nat d.host.registry.active), d)
  | .sessions => (.ok (.arr (d.host.registry.sessions.map (sessionToJson d.now))), d)
  | .stats => (.ok (statsToJson d.host), d)
  | .disconnect id => d.afterwards (d.host.close id .userInitiated)
  | .focus id => d.afterwards (d.host.focus id)
  | .input e =>
    if d.captureOpen then (.ok .null, { d with captured := d.captured ++ [e] })
    else (.error .captureClosed, d)

def Desk.answer (d : Desk) (r : Except Complaint Request) : Reply × Desk :=
  match r.bind Command.ofRequest with
  | .ok c => d.perform c
  | .error why => (.error why, d)

def Desk.answerAll (d : Desk) (rs : List (Except Complaint Request)) : List Reply × Desk :=
  let (out, d) := rs.foldl (fun (out, d) r ↦
    let (reply, d) := Desk.answer d r
    (reply :: out, d)) (([] : List Reply), d)
  (out.reverse, d)

end DeskLink.Server.Console
