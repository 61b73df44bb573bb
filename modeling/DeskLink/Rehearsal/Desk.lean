import DeskLink.Rehearsal.ScriptJson
import DeskLink.Server.Forwarder

/-!
# Rehearsals of the registry

A `Desk` is a registry with a forwarder and nobody at the other end of the queues: sessions are
created, reserved, committed and removed by hand, events are forwarded to them, and the queues are
emptied by hand. A queue stays within reach after its session has been removed.

A name holds one reservation: another one under it gives the first back. An event that finds no
room would wait for ever; it is given up and shown as pending.
-/

namespace DeskLink.Rehearsal

open Server (Registry Newcomer Pump Forwarded)
open Session (Outlet)

/-- A registry, a forwarder and what was noted on the way. -/
structure Desk where
  registry : Registry
  pin : Option SessionId
  outlets : List Outlet
  /-- The queue of every session that ever had one. -/
  queues : List (SessionId × Nat)
  /-- The names of the reservations held. -/
  held : List String
  /-- The names that sessions are given. -/
  names : Nat → SessionId
  /-- How many sessions have been created; each is later than the one before. -/
  created : Nat
  /-- The numbers of sessions reported since the last step. -/
  reported : List Nat

namespace Desk

def new (maxClients : Nat) (names : Nat → SessionId) : Desk :=
  ⟨.new maxClients, none, [], [], [], names, 0, []⟩

/-- A session to be: who it is, and the capacity of its queue, if it is to have one. -/
structure Candidate where
  peer : Identity
  version : Version
  queue : Option Nat

/-- One thing that is done. -/
inductive Act where
  | create (c : Candidate)
  | reserve (name : String)
  | release (name : String)
  | commit (name : String) (c : Candidate)
  | lookup (id : SessionId)
  | remove (id : SessionId)
  | control (id : SessionId)
  | update (s : Snapshot)
  | setFocus (id : Option SessionId)
  | forward (e : Event)
  | sendTo (id : SessionId) (e : Event)
  /-- Forwards what is captured until the capture ends. -/
  | run (events : List Event)
  | popAll (id : SessionId)
  | closeQueue (id : SessionId)

/-- What came of it. -/
inductive Answer where
  | nothing
  | named (id : SessionId)
  | failed (why : Failure)
  | reserved
  | done
  | flag (b : Bool)
  | count (n : Nat)
  | record (r : Option Record)
  | pushed (outcome : PushOutcome)
  | pending
  | events (es : List Event)

def now (d : Desk) : Instant := d.created + 1

/-- The desk after a change of the number of sessions. -/
def report (d : Desk) : Desk := { d with reported := d.reported ++ [d.registry.active] }

def queue? (d : Desk) (id : SessionId) : Option Nat :=
  (d.queues.find? (·.1 == id)).map (·.2)

/-- A session as the registry wants it, and the outlets with its queue. -/
def prepare (d : Desk) (c : Candidate) : Newcomer × List Outlet :=
  match c.queue with
  | some capacity => (⟨c.peer, c.version, some d.outlets.length⟩, d.outlets ++ [.new capacity])
  | none => (⟨c.peer, c.version, none⟩, d.outlets)

/-- The desk after a session was registered. -/
def settleIn (d : Desk) (n : Newcomer) (outlets : List Outlet) (id : SessionId)
    (registry : Registry) : Answer × Desk :=
  (.named id, report { d with
    registry, outlets, created := d.created + 1
    queues := d.queues ++ (n.control.map (id, ·)).toList })

/-- The names to draw from: enough to get past those in use. -/
def fresh (d : Desk) : List SessionId :=
  (List.range (d.registry.entries.length + 1)).map fun i ↦ d.names (d.created + i)

def sendTo (d : Desk) (id : SessionId) (e : Event) : Answer × Desk :=
  match d.registry.control id with
  | none => (.failed (.notFound id), d)
  | some key =>
    match Server.handTo d.outlets key id e with
    | (.done outcome, outlets) => (.pushed outcome, { d with outlets })
    | (.refused why, outlets) => (.failed why, { d with outlets })
    | (.wait, _) => (.pending, d)

def pumpWithin : Nat → Desk → Pump → Pump × Desk
  | 0, d, p => (p, d)
  | n + 1, d, p =>
    match p.step d.registry d.pin d.outlets with
    | some (p, outlets) => pumpWithin n { d with outlets } p
    | none => (p, d)

def perform (d : Desk) : Act → Answer × Desk
  | .create c =>
    let (n, outlets) := d.prepare c
    match d.registry.create? d.fresh n d.now with
    | .ok (id, registry) => d.settleIn n outlets id registry
    | .error why => (.failed why, d)
  | .reserve name =>
    match d.registry.reserve with
    | .ok registry =>
      if d.held.contains name then (.reserved, { d with registry := registry.release })
      else (.reserved, { d with registry, held := name :: d.held })
    | .error why => (.failed why, d)
  | .release name =>
    if d.held.contains name then
      (.flag true, { d with registry := d.registry.release, held := d.held.erase name })
    else (.flag false, d)
  | .commit name c =>
    if d.held.contains name then
      let d := { d with held := d.held.erase name }
      let (n, outlets) := d.prepare c
      match d.registry.commit? d.fresh n d.now with
      | some (id, registry) => d.settleIn n outlets id registry
      | none => (.nothing, d)
    else (.nothing, d)
  | .lookup id => (.record (d.registry.lookup id), d)
  | .remove id =>
    match d.registry.remove id with
    | (some r, registry) => (.record (some r), report { d with registry })
    | (none, _) => (.record none, d)
  | .control id =>
    match (d.registry.control id).bind fun key ↦ d.outlets[key]? with
    | some out => (.count out.queue.capacity, d)
    | none => (.nothing, d)
  | .update s => (.nothing, { d with registry := d.registry.update s })
  | .setFocus id =>
    match Server.setFocus d.registry id with
    | .ok pin => (.done, { d with pin })
    | .error why => (.failed why, d)
  | .forward e =>
    match Server.target d.registry d.pin with
    | some id => d.sendTo id e
    | none => (.nothing, d)
  | .sendTo id e => d.sendTo id e
  | .run events =>
    let (p, d) := pumpWithin patience d (.start events)
    (if p.finished then .count p.count else .pending, d)
  | .popAll id =>
    match (d.queue? id).bind fun key ↦ (d.outlets[key]?).map (key, ·) with
    | some (key, out) =>
      let (es, queue) := out.queue.drain
      (.events es, { d with outlets := Server.setOutlet d.outlets key { out with queue } })
    | none => (.events [], d)
  | .closeQueue id =>
    match (d.queue? id).bind fun key ↦ (d.outlets[key]?).map (key, ·) with
    | some (key, out) =>
      let (n, queue) := out.queue.close
      (.count n, { d with outlets := Server.setOutlet d.outlets key { out with queue } })
    | none => (.nothing, d)

/-! ## As JSON -/

/-- The session that an object describes. -/
def Candidate.ofJson? (j : Json) : Option Candidate := do
  some ⟨← Identity.ofJson? j, ← (j.get? "version").bind Version.ofJson?, j.natAt? "queue"⟩

/-- The snapshot that an object describes. Its instants come after those of all creations. -/
def snapshotOfJson? (j : Json) : Option Snapshot := do
  let nat (key : String) : UInt32 := UInt32.ofNat ((j.natAt? key).getD 0)
  some ⟨← (j.get? "id").bind SessionId.ofJson?, patience + (j.natAt? "at_us").getD 0,
    j.natAt? "rtt_us", nat "outbound_seq", nat "inbound_seq"⟩

/-- The act that an object names; a capture loses what is above its buffer. -/
def Act.ofJson? (buffer : Nat) (j : Json) : Option Act := do
  match ← j.only? with
  | ("create", v) => (Candidate.ofJson? v).map .create
  | ("reserve", .str name) => some (.reserve name)
  | ("release", .str name) => some (.release name)
  | ("commit", v) => some (.commit (← v.strAt? "slot") (← Candidate.ofJson? v))
  | ("lookup", v) => (SessionId.ofJson? v).map .lookup
  | ("remove", v) => (SessionId.ofJson? v).map .remove
  | ("control", v) => (SessionId.ofJson? v).map .control
  | ("update", v) => (snapshotOfJson? v).map .update
  | ("set_focus", v) => some (.setFocus (SessionId.ofJson? v))
  | ("forward", v) => (Event.ofJson? v).map .forward
  | ("send_to", .arr [id, e]) => some (.sendTo (← SessionId.ofJson? id) (← Event.ofJson? e))
  | ("run", .arr es) => (es.mapM Event.ofJson?).map fun es ↦ .run (es.take (max buffer 1))
  | ("pop_all", v) => (SessionId.ofJson? v).map .popAll
  | ("close_queue", v) => (SessionId.ofJson? v).map .closeQueue
  | _ => none

def recordToJson (r : Record) : Json :=
  .obj [("session_id", r.session.toJson), ("peer", .str r.peer.toText),
    ("capabilities", .nat r.peer.capabilities.toNat), ("version", .str r.version.toText),
    ("state", .str "Established"), ("outbound_seq", .nat r.outboundSeq.toNat),
    ("inbound_seq", .nat r.inboundSeq.toNat), ("last_rtt_us", .ofOption .nat r.lastRtt)]

def Answer.toJson : Answer → Json
  | nothing => .null
  | named id => id.toJson
  | failed why => why.toJson
  | reserved => .str "reserved"
  | done => .str "ok"
  | flag b => .bool b
  | count n => .nat n
  | record r => .ofOption recordToJson r
  | pushed outcome => .str outcome.name
  | pending => .str "pending"
  | events es => .list Event.toJson es

/-- Does one thing and shows the registry after it. -/
def step (d : Desk) (a : Act) : Json × Desk :=
  let (answer, d) := d.perform a
  let r := d.registry
  (.obj [("result", answer.toJson), ("active", .nat r.active),
    ("sessions", .list (·.session.toJson) r.sessions),
    ("newest", .ofOption SessionId.toJson r.newest),
    ("target", .ofOption SessionId.toJson (Server.target r d.pin)),
    ("latest_rtt_us", .ofOption .nat r.latestRtt), ("reported", .list .nat d.reported)],
    { d with reported := [] })

def run (d : Desk) (acts : List Act) : List Json :=
  (acts.foldl (fun (out, d) a ↦
    let (j, d) := Desk.step d a
    (j :: out, d)) ([], d)).1.reverse

end Desk

end DeskLink.Rehearsal
