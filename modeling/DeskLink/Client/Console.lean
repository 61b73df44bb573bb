import DeskLink.Client.Guest
import DeskLink.Console.Request

/-!
# The client's console

What a client can be asked for by automation. Connecting, disconnecting and sending may take their
time; the console waits for them before it reads on.
-/

namespace DeskLink.Client.Console

open DeskLink.Console

/-- What the client is asked for. -/
inductive Command where
  | status
  | connect (address : String)
  | disconnect (id : SessionId)
  | input (e : Event)

def names : List String := ["get_connection_status", "connect", "disconnect", "send_input"]

def Command.ofRequest (r : Request) : Except Complaint Command :=
  match r.command with
  | "get_connection_status" => .ok .status
  | "connect" => (textArgument "address" r.args).map .connect
  | "disconnect" => (textArgument "session_id" r.args).bind fun s ↦
    (sessionNamed s).map .disconnect
  | "send_input" => (eventArgument r.args).map .input
  | name => .error (.command name)

/-- A client's status as the console shows it. -/
def statusToJson (s : Status) : Json :=
  .obj [("connected", .bool s.connected), ("session_id", .ofOption SessionId.toJson s.session),
    ("last_rtt_ms", .ofOption (fun d ↦ .nat (Duration.millis d)) s.rtt),
    ("last_error", .ofOption (fun f ↦ .str f.message) s.error)]

def connectReply : Except Failure SessionId → Reply
  | .ok id => .ok id.toJson
  | .error why => .error (.failure why)

def disconnectReply : Except Failure Unit → Reply
  | .ok _ => .ok .null
  | .error why => .error (.failure why)

/-- What comes of sending an event; none when there is no connection. -/
def inputReply : Option (Except Failure PushOutcome) → Reply
  | some (.ok outcome) => .ok (.str outcome.name)
  | some (.error why) => .error (.failure why)
  | none => .ok .null

end DeskLink.Client.Console
