import DeskLink.Rehearsal.ScriptJson
import DeskLink.Rehearsal.World

/-!
# Worlds as JSON

A script for a world is an array of objects with one key each, which names the act. What came of
an act is shown with the state after it: the server's sessions, every client's status, and what
was injected since the act before.
-/

namespace DeskLink.Rehearsal

open Client (Guest Backoff Reconnection)
open Server (Host Pump)

namespace World

/-! ## Acts -/

/-- One thing that is done. Clients are given by number. -/
inductive Act where
  | connect (i : Nat)
  | disconnect (i : Nat) (id : SessionId)
  | waitClosed (i : Nat) (id : SessionId)
  | clientSend (i : Nat) (e : Event)
  | serverSend (e : Event)
  | serverSendAll (es : List Event)
  | setFocus (id : Option SessionId)
  | close (id : SessionId)
  /-- The same request so many times in a row. -/
  | closeTimes (id : SessionId) (n : Nat)
  | forward (es : List Event)
  | shutdown
  /-- Accepts from a network that nobody is on. -/
  | serveAgain
  /-- Accepts from a network that fails like this. -/
  | serveFlaky (kinds : List String)
  /-- Listens on a machine that is on its own. -/
  | listen (address : String)
  | stats
  | keep (i : Nat)
  | cancel (i : Nat)
  /-- Lets time pass until a client is no longer kept connected. -/
  | awaitKept (i : Nat)

def Act.ofJson? (j : Json) : Option Act := do
  let (key, v) ← j.only?
  let n? : Option Nat := v.int?.map Int.toNat
  match key, v with
  | "connect", _ => n?.map .connect
  | "client_disconnect", .arr [.int i, id] => (SessionId.ofJson? id).map (.disconnect i.toNat)
  | "wait_closed", .arr [.int i, id] => (SessionId.ofJson? id).map (.waitClosed i.toNat)
  | "client_send", .arr [.int i, e] => (Event.ofJson? e).map (.clientSend i.toNat)
  | "server_send", _ => (Event.ofJson? v).map .serverSend
  | "server_send_all", .arr es => (es.mapM Event.ofJson?).map .serverSendAll
  | "set_focus", _ => some (.setFocus (SessionId.ofJson? v))
  | "server_disconnect", _ => (SessionId.ofJson? v).map .close
  | "server_disconnect_times", .arr [id, .int n] =>
    (SessionId.ofJson? id).map fun id ↦ .closeTimes id n.toNat
  | "forward_from", .arr es => (es.mapM Event.ofJson?).map .forward
  | "shutdown", _ => some .shutdown
  | "serve_again", _ => some .serveAgain
  | "serve_flaky", .arr kinds => (kinds.mapM Json.str?).map .serveFlaky
  | "start_server", .str address => some (.listen address)
  | "stats", _ => some .stats
  | "run", _ => n?.map .keep
  | "cancel", _ => n?.map .cancel
  | "await_run", _ => n?.map .awaitKept
  | _, _ => none

/-! ## Doing them -/

/-- An answer, or that there is none yet. -/
def orPending {α : Type} (f : α → Json) : Option α → Json
  | some a => f a
  | none => .str "pending"

/-- An established session, or why there is none, as a value. -/
def connectedToJson : Except Failure SessionId → Json
  | .ok id => id.toJson
  | .error why => why.toJson

def close (w : World) (id : SessionId) : Json × World :=
  match w.host.close id .userInitiated with
  | .ok host => (.str "ok", { w with host })
  | .error why => (why.toJson, w)

/-- Asks the server so many times to close a session. -/
def closeTimes (w : World) (id : SessionId) (n : Nat) : Json × World :=
  let (out, w) := (List.range n).foldl (fun (out, w) _ ↦
    let (j, w) := World.close w id
    (j :: out, w)) (([] : List Json), w)
  (.arr out.reverse, w)

/-- How often a network that fails like this is asked for a connection. -/
def accepts (w : World) (kinds : List String) : Nat :=
  if w.host.stopped then 0 else (kinds.takeWhile (· != "NotConnected")).length + 1

/-- Where the server listens, or why it does not. -/
def listeningToJson (address : String) : Except IoError SocketAddress → Json
  | .ok a => .obj [("ip", .str a.ip.toText), ("port_assigned", .bool true)]
  | .error e =>
    let why := e.text
    .error "ServerError" s!"bind failed on {address}: {why}"

def stats (w : World) : Json :=
  .obj [("active", .nat w.host.registry.active), ("bytes_received", .nat w.host.bytesReceived),
    ("bytes_sent", .nat w.host.bytesSent), ("rtt", .bool w.host.registry.latestRtt.isSome)]

def kept (w : World) (i : Nat) : Json :=
  match (w.members[i]?).bind Member.keeper with
  | none => .null
  | some k =>
    .obj [("outcome", orPending Reconnection.resultToJson k.result),
      ("events", .list Reconnection.Event.toJson k.control.events)]

/-- Does one thing; what comes of it may need others to move. -/
def perform (w : World) : Act → Json × World
  | .connect i =>
    let (r, w) := w.connect i
    (orPending connectedToJson r, w)
  | .disconnect i id =>
    let (r, w) := w.disconnect i id
    (orPending Failure.resultToJson r, w)
  | .waitClosed i id => (orPending Session.endingToJson (w.waitClosed i id), w)
  | .clientSend i e =>
    let (r, w) := w.clientSend i e
    (r.toJson, w)
  | .serverSend e =>
    let (r, w) := w.serverSend e
    (r.toJson, w)
  | .serverSendAll es =>
    let (rs, w) := w.serverSendAll es
    (.list Stage.Sent.toJson rs, w)
  | .setFocus id =>
    match w.host.focus id with
    | .ok host => (.str "ok", { w with host })
    | .error why => (why.toJson, w)
  | .close id => World.close w id
  | .closeTimes id n => World.closeTimes w id n
  | .forward es =>
    let w := settle { w with pump := some (.start es) }
    (orPending (fun p ↦ .nat p.count) (w.pump.filter Pump.finished), w)
  | .shutdown => (.null, w.shutdown)
  | .serveAgain => (.obj [("loop_finished", .bool true)], w)
  | .serveFlaky kinds =>
    (.obj [("accepts", .nat (w.accepts kinds)), ("finished", .bool true)], w)
  | .listen address =>
    let (r, w) := w.listen address
    (listeningToJson address r, w)
  | .stats => (w.stats, w)
  | .keep i => (.null, w.keep i)
  | .cancel i => (.null, w.cancel i)
  | .awaitKept i =>
    let w := w.awaitKeeper i
    (w.kept i, w)

/-- A client as it is shown after each act. -/
def memberToJson (m : Member) : Json :=
  let s := m.guest.status
  .obj [("connected", .bool s.connected), ("session_id", .ofOption SessionId.toJson s.session),
    ("last_error", .ofOption Failure.toJson s.error),
    ("injected", .list Event.toJson m.guest.injected)]

def recordToJson (r : Record) : Json :=
  .obj [("id", r.session.toJson), ("peer", .str r.peer.name), ("version", .str r.version.toText)]

/-- Forgets what has been shown. -/
def shown (w : World) : World :=
  { w with
    host := { w.host with journal := .empty }
    members := w.members.map fun m ↦ { m with guest := { m.guest with injected := [] } } }

/-- Does one thing, lets everybody move, and shows what there is. -/
def step (w : World) (a : Act) : Json × World :=
  let (result, w) := w.perform a
  let w := w.settle
  (.obj [("result", result), ("active", .nat w.host.registry.active),
    ("sessions", .list recordToJson w.host.registry.sessions),
    ("clients", .list memberToJson w.members),
    ("server_injected", .list Event.toJson w.host.journal.injected),
    ("reported", .list .nat w.host.journal.active), ("accepting", .bool !w.host.stopped)], w.shown)

def run (w : World) (acts : List Act) : List Json :=
  (acts.foldl (fun (out, w) a ↦
    let (j, w) := World.step w a
    (j :: out, w)) (([] : List Json), w)).1.reverse

/-! ## Settings -/

/-- The node of a rehearsal with this number. -/
def node (n : Nat) : Uuid :=
  ⟨List.replicate 16 (UInt8.ofNat n), by simp⟩

/-- The tuning under this key; what is left out is that of rehearsals. -/
def tuningAt (j : Json) (key : String) : Tuning := .ofJson patient ((j.get? key).getD .null)

/-- The times of a client that connects again: short ones, and few attempts. -/
def hasty : Backoff := ⟨1, 4, .ofFloat 0.0, some 2⟩

def hostOfJson? (entropy : Server.Entropy) (j : Json) : Option (Except InvalidSetting Host) := do
  let secret ← Secret.ofJson? j
  let t := tuningAt j "protocol"
  let own : Hello := ⟨.current, ⟨node 0, (j.strAt? "name").getD "server", 3⟩⟩
  let limit := (j.natAt? "max_clients").getD 4
  some (t.check.map fun _ ↦ .new own secret.checker .accepting t entropy limit)

def guestOfJson? (n : Nat) (j : Json) : Option (Except InvalidSetting (Guest × Backoff)) := do
  let secret ← Secret.ofJson? j
  let t := tuningAt j "protocol"
  let p := Backoff.ofJson hasty j
  let version := ((j.get? "version").bind Version.ofJson?).getD .current
  let own : Hello := ⟨version, ⟨node n, (j.strAt? "name").getD "client", 3⟩⟩
  some (t.check.bind fun _ ↦ p.check.map fun _ ↦ (.new own secret.prover .accepting t, p))

/-- The server and the clients that an object describes; the first wrong setting counts. -/
def ofJson? (entropy : Server.Entropy) (j : Json) : Option (Except InvalidSetting World) := do
  let host ← hostOfJson? entropy ((j.get? "server").getD .null)
  let clients := ((j.get? "clients").bind Json.arr?).getD []
  let guests ← (List.zip (List.range clients.length) clients).mapM fun (i, c) ↦
    guestOfJson? (i + 1) c
  some (host.bind fun h ↦ (guests.mapM id).map fun gs ↦ .new h gs)

/-- The whole rehearsal that an object describes. -/
def answer? (entropy : Server.Entropy) (j : Json) : Option Json := do
  let acts ← (((j.get? "steps").bind Json.arr?).getD []).mapM Act.ofJson?
  match ← ofJson? entropy j with
  | .error why => some (.error "InvalidConfig" why.message)
  | .ok w =>
    some (.obj [("max_clients", .nat w.host.registry.maxClients), ("steps", .arr (w.run acts))])

end World

end DeskLink.Rehearsal
