import DeskLink.Credential
import DeskLink.Server.Forwarder
import DeskLink.Tuning

/-!
# A server with its connections

A `Host` is the registry together with every connection that is being served. A connection first
conducts a handshake, during which it reserves a place and commits it; then it runs the session;
and at the end it takes its session out of the registry and gives back a place it still holds.

Random choices come from an `Entropy`: an endless list of nonces and of session names, of which
the host remembers how far it has drawn.
-/

namespace DeskLink.Server

open Handshake (Conduct Machine)
open Session (Worker Outlet Mailbox Ending)

/-- Where random choices come from. -/
structure Entropy where
  nonce : Nat → Nonce
  session : Nat → SessionId

/-- What a connection is busy with. -/
inductive Stage where
  | negotiating (c : Conduct)
  | running (w : Worker)
  | ended (result : Ending)

/-- One connection. -/
structure Connection where
  stage : Stage
  /-- The key of its outlet. -/
  outlet : Nat
  /-- Whether it holds a reserved place. -/
  reserved : Bool
  /-- The session it has registered. -/
  registered : Option SessionId
  bytesSent : Nat
  bytesReceived : Nat

namespace Connection

/-- The link, while there is one. -/
def link? (c : Connection) : Option Link :=
  match c.stage with
  | .negotiating c => some c.link
  | .running w => some w.link
  | .ended _ => none

/-- The connection with the link's counts taken over. -/
def counted (c : Connection) : Connection :=
  match c.link? with
  | some l => { c with bytesSent := l.bytesSent, bytesReceived := l.bytesReceived }
  | none => c

def result? (c : Connection) : Option Ending :=
  match c.stage with
  | .ended r => some r
  | _ => none

/-- The instant at which waiting ends by itself. -/
def wakeup? (c : Connection) : Option Instant :=
  match c.stage with
  | .negotiating c => c.wakeup?
  | .running w => w.wakeup?
  | .ended _ => none

end Connection

/-- What a server tells its surroundings. -/
structure Journal where
  /-- Events injected, in order. -/
  injected : List Event
  /-- The numbers of sessions reported after each change. -/
  active : List Nat
  /-- Round trips measured. -/
  latencies : Nat
  deriving DecidableEq

def Journal.empty : Journal := ⟨[], [], 0⟩

/-- A server. -/
structure Host where
  own : Hello
  checker : Checker
  inject : Injector
  tuning : Tuning
  entropy : Entropy
  /-- How many nonces and names have been drawn. -/
  drawn : Nat
  named : Nat
  registry : Registry
  /-- The pinned session. -/
  pin : Option SessionId
  /-- It accepts no more connections. -/
  stopped : Bool
  outlets : List Outlet
  connections : List Connection
  journal : Journal

namespace Host

def new (own : Hello) (checker : Checker) (inject : Injector) (tuning : Tuning) (entropy : Entropy)
    (maxClients : Nat) : Host :=
  ⟨own, checker, inject, tuning, entropy, 0, 0, .new maxClients, none, false, [], [], .empty⟩

/-- Begins to serve one more connection; its index is the number of those before it. -/
def accept (h : Host) (now : Instant) : Host :=
  let machine := Machine.fresh (.server h.checker) h.own
  let link := Link.new h.own.version.major h.tuning.maxFrame
  let conduct := Conduct.start machine link true h.tuning.handshake now
  { h with
    outlets := h.outlets ++ [.new h.tuning.queueCapacity]
    connections := h.connections ++ [⟨.negotiating conduct, h.outlets.length, false, none, 0, 0⟩] }

/-- The names to draw from: enough to get past those in use. -/
def names (h : Host) : List SessionId :=
  (List.range (h.registry.entries.length + 1)).map fun i ↦ h.entropy.session (h.named + i)

/-- Notes the number of sessions after a change. -/
def report (h : Host) : Host :=
  { h with journal := { h.journal with active := h.journal.active ++ [h.registry.active] } }

def setConnection (h : Host) (i : Nat) (c : Connection) : Host :=
  { h with connections := h.connections.set i c.counted }

/-! ## The registry's side of a handshake -/

/-- What the registry does when a connection asks. -/
def registrar (h : Host) (c : Connection) (now : Instant) : Handshake.Registrar where
  reserve := h.registry.reserve.map fun _ ↦ ()
  nonce := h.entropy.nonce h.drawn
  register peer version :=
    if c.reserved then
      match h.registry.commit? h.names ⟨peer, version, some c.outlet⟩ now with
      | some (id, _) => .ok id
      | none => .error .capacityExceeded
    else .error .capacityExceeded

/-- The host and the connection after a move of its handshake. -/
def afterEffect (h : Host) (c : Connection) (now : Instant) :
    Handshake.Effect → Host × Connection
  | .reserved =>
    match h.registry.reserve with
    | .ok registry => ({ h with registry, drawn := h.drawn + 1 }, { c with reserved := true })
    | .error _ => (h, c)
  | .registered peer version =>
    if c.reserved then
      match h.registry.commit? h.names ⟨peer, version, some c.outlet⟩ now with
      | some (id, registry) =>
        (report { h with registry, named := h.named + 1 },
          { c with reserved := false, registered := some id })
      | none => (h, c)
    else (h, c)
  | _ => (h, c)

/-! ## The end of a connection -/

def removeSession (h : Host) (id : SessionId) : Host :=
  match h.registry.remove id with
  | (some _, registry) => report { h with registry }
  | (none, registry) => { h with registry }

/-- Nobody takes commands from this outlet any more. -/
def closeMailbox (h : Host) (key : Nat) : Host :=
  match h.outlets[key]? with
  | some out =>
    let out := { out with commands := { out.commands with closed := true } }
    { h with outlets := setOutlet h.outlets key out }
  | none => h

/-- A handshake failed: its session is removed and its place given back. -/
def abandon (h : Host) (i : Nat) (c : Connection) (why : Failure) : Host :=
  let h := match c.registered with
    | some id => h.removeSession id
    | none => h
  let h := if c.reserved then { h with registry := h.registry.release } else h
  let c := { c with stage := .ended (.error why), reserved := false }
  (h.closeMailbox c.outlet).setConnection i c

/-- A session ended: it is removed. -/
def retire (h : Host) (i : Nat) (c : Connection) (id : SessionId) (e : Ending) : Host :=
  (h.removeSession id).setConnection i { c with stage := .ended e }

/-! ## Moves -/

/-- What a session tells about itself. -/
def note (h : Host) : Session.Effect → Host
  | .injected e =>
    match h.inject e with
    | .ok _ => { h with journal := { h.journal with injected := h.journal.injected ++ [e] } }
    | .error _ => h
  | .progress s =>
    let latencies := h.journal.latencies + if s.rtt.isSome then 1 else 0
    { h with registry := h.registry.update s, journal := { h.journal with latencies } }
  | _ => h

/-- One move of a connection that is negotiating. -/
def negotiate (h : Host) (i : Nat) (c : Connection) (conduct : Conduct) (now : Instant)
    (e : Endpoint) : Option (Host × Endpoint) :=
  match conduct.result? with
  | some (.error why) => some (h.abandon i c.counted why, e.drop)
  | some (.ok outcome) =>
    let worker := Worker.start outcome.session h.own.version h.tuning.heartbeat h.tuning.drain
      conduct.link now
    some (h.setConnection i { c with stage := .running worker }, e)
  | none =>
    (conduct.move now (h.registrar c now) e).map fun (conduct, effect, e) ↦
      let (h, c) := h.afterEffect c now effect
      (h.setConnection i { c with stage := .negotiating conduct }, e)

/-- The outlet of a running session: it is abandoned once its session is not registered. -/
def outletOf (h : Host) (c : Connection) (id : SessionId) : Option Outlet :=
  (h.outlets[c.outlet]?).map fun out ↦
    { out with commands := { out.commands with
        abandoned := h.registry.control id != some c.outlet } }

/-- One move of a connection that runs a session. -/
def run (h : Host) (i : Nat) (c : Connection) (w : Worker) (now : Instant) (e : Endpoint) :
    Option (Host × Endpoint) :=
  match w.result? with
  | some ending => some (h.retire i c.counted w.session ending, e)
  | none =>
    match h.outletOf c w.session with
    | none => none
    | some out =>
      (w.move now h.inject out e).map fun (w, effect, out, e) ↦
        let h := { h with outlets := setOutlet h.outlets c.outlet out }
        ((h.note effect).setConnection i { c with stage := .running w }, e)

/-- One move of the connection with this index over this end of its stream. -/
def step (h : Host) (i : Nat) (now : Instant) (e : Endpoint) : Option (Host × Endpoint) :=
  match h.connections[i]? with
  | none => none
  | some c =>
    match c.stage with
    | .negotiating conduct => h.negotiate i c conduct now e
    | .running w => h.run i c w now e
    | .ended _ => none

/-! ## What a server is asked to do -/

/-- Asks a session to close. A full mailbox is as good as a taken command. -/
def close (h : Host) (id : SessionId) (reason : CloseReason) : Except Failure Host :=
  match (h.registry.control id).bind fun key ↦ (h.outlets[key]?).map (key, ·) with
  | none => .error (.notFound id)
  | some (key, out) =>
    match out.commands.post reason with
    | (.closed, _) => .error (.notFound id)
    | (_, commands) => .ok { h with outlets := setOutlet h.outlets key { out with commands } }

/-- Asks every registered session to close. -/
def closeAll (h : Host) (reason : CloseReason) : Host :=
  h.registry.sessions.foldl (fun h r ↦
    match h.close r.session reason with
    | .ok h => h
    | .error _ => h) h

/-- Accepts no more connections and closes every session that is registered. -/
def shutdown (h : Host) : Host := { h with stopped := true }.closeAll .serverShutdown

def focus (h : Host) (id : Option SessionId) : Except Failure Host :=
  (setFocus h.registry id).map fun pin ↦ { h with pin }

def bytesSent (h : Host) : Nat := h.connections.foldl (fun n c ↦ n + c.bytesSent) 0

def bytesReceived (h : Host) : Nat := h.connections.foldl (fun n c ↦ n + c.bytesReceived) 0

end Host

end DeskLink.Server
