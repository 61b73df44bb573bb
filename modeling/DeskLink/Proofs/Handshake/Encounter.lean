import DeskLink.Proofs.Handshake.Reaction

/-!
# An encounter

A client and a server talk over two channels that keep the order of messages. The server's owner
answers what the server asks for, whenever it comes round to it and with whatever verdict. Anything
may happen in any order, and at any moment either side may be struck: made to fail, to abort or to
finish.

What an encounter does is a function of what happens, so a run is given by the list of its
occurrences. One that cannot happen, such as the arrival of a message when there is none, changes
nothing.
-/

namespace DeskLink.Handshake

def Action.message? : Action → Option Message
  | .send m => some m
  | _ => none

/-- The nonce that an action challenges with. -/
def Action.challenge? : Action → Option Nonce
  | .send (.auth (.challenge nonce)) => some nonce
  | _ => none

/-- Whether an action asks for an answer. -/
def Action.asks : Action → Bool
  | .reserve | .register => true
  | _ => false

/-! ## A server and its owner -/

/-- A server with what its owner has been asked and has told it. -/
structure Tended where
  machine : Machine
  /-- What the server has asked for and not been told. -/
  asked : List Action
  /-- Everything the server has wanted done. -/
  log : List Action
  /-- Every name with which the server was told that its session is registered. -/
  granted : List SessionId

namespace Tended

def does (t : Tended) (r : Machine.Reaction) : Tended :=
  ⟨r.2, t.asked ++ r.1.filter Action.asks, t.log ++ r.1, t.granted⟩

/-- The server is being told what it asked for. -/
def told (t : Tended) (a : Action) : Tended := { t with asked := t.asked.erase a }

/-- The server is being told that its session is registered. -/
def grants (t : Tended) (id : SessionId) : Tended := { t with granted := t.granted ++ [id] }

/-- The challenges that the server has made. -/
def challenges (t : Tended) : List Nonce := t.log.filterMap Action.challenge?

/-- How often the server has asked for a registration. -/
def registrations (t : Tended) : Nat := t.log.count .register

@[simp] theorem machine_does (t : Tended) (r : Machine.Reaction) : (t.does r).machine = r.2 := rfl

@[simp] theorem granted_does (t : Tended) (r : Machine.Reaction) :
    (t.does r).granted = t.granted := rfl

@[simp] theorem challenges_does (t : Tended) (r : Machine.Reaction) :
    (t.does r).challenges = t.challenges ++ r.1.filterMap Action.challenge? := by
  rw [challenges, does, List.filterMap_append, challenges]

@[simp] theorem registrations_does (t : Tended) (r : Machine.Reaction) :
    (t.does r).registrations = t.registrations + r.1.count .register := by
  rw [registrations, does, List.count_append, registrations]

@[simp] theorem challenges_told (t : Tended) (a : Action) :
    (t.told a).challenges = t.challenges := rfl

@[simp] theorem challenges_grants (t : Tended) (id : SessionId) :
    (t.grants id).challenges = t.challenges := rfl

@[simp] theorem registrations_told (t : Tended) (a : Action) :
    (t.told a).registrations = t.registrations := rfl

@[simp] theorem registrations_grants (t : Tended) (id : SessionId) :
    (t.grants id).registrations = t.registrations := rfl

@[simp] theorem count_asked_does (t : Tended) (r : Machine.Reaction) :
    (t.does r).asked.count .register = t.asked.count .register + r.1.count .register := by
  rw [does, List.count_append, List.count_filter rfl]

end Tended

/-! ## Both sides -/

/-- A client and a server with what is between them. -/
structure Encounter where
  client : Machine
  server : Tended
  /-- The messages on their way to the server, first sent first. -/
  toServer : List Message
  /-- The messages on their way to the client, first sent first. -/
  toClient : List Message

/-- One of the two sides. -/
inductive Side where
  | client | server

/-- What may strike a machine from outside. -/
inductive Blow where
  | fail (why : Failure)
  | abort (why : Failure)
  | finish

/-- What a blow does. -/
def Machine.struck (m : Machine) : Blow → Machine.Reaction
  | .fail why => m.fail why
  | .abort why => m.abort why
  | .finish => ([], m.finish)

/-- What may happen next. -/
inductive Occurrence where
  /-- The client begins. -/
  | start
  /-- The first message on its way to this side arrives. -/
  | arrive (side : Side)
  /-- The server is told whether it has a place, with the challenge to use. -/
  | reserved (verdict : Except Failure Nonce)
  /-- The server is told whether its session is registered, and under which name. -/
  | registered (verdict : Except Failure SessionId)
  | strike (side : Side) (blow : Blow)

namespace Encounter

/-- Two fresh machines and nothing between them. -/
def fresh (prover : Prover) (checker : Checker) (ours theirs : Hello) : Encounter :=
  ⟨.fresh (.client prover) ours, ⟨.fresh (.server checker) theirs, [], [], []⟩, [], []⟩

def clientDoes (e : Encounter) (r : Machine.Reaction) : Encounter :=
  { e with client := r.2, toServer := e.toServer ++ r.1.filterMap Action.message? }

/-- The server, told this much, reacted. -/
def serverDoes (e : Encounter) (t : Tended) (r : Machine.Reaction) : Encounter :=
  { e with server := t.does r, toClient := e.toClient ++ r.1.filterMap Action.message? }

/-- What comes of an event; nothing when there is no message to arrive or no question to answer. -/
def step (e : Encounter) : Occurrence → Encounter
  | .start => e.clientDoes e.client.start
  | .arrive .client =>
    match e.toClient with
    | [] => e
    | msg :: rest => { e with toClient := rest }.clientDoes (e.client.onMessage msg)
  | .arrive .server =>
    match e.toServer with
    | [] => e
    | msg :: rest =>
      { e with toServer := rest }.serverDoes e.server (e.server.machine.onMessage msg)
  | .reserved verdict =>
    if .reserve ∈ e.server.asked then
      e.serverDoes (e.server.told .reserve) <|
        match verdict with
        | .ok nonce => e.server.machine.admitted nonce
        | .error why => e.server.machine.fail why
    else e
  | .registered verdict =>
    if .register ∈ e.server.asked then
      match verdict with
      | .ok id =>
        e.serverDoes ((e.server.told .register).grants id) (e.server.machine.registered id)
      | .error why => e.serverDoes (e.server.told .register) (e.server.machine.fail why)
    else e
  | .strike .client blow => e.clientDoes (e.client.struck blow)
  | .strike .server blow => e.serverDoes e.server (e.server.machine.struck blow)

def run (e : Encounter) (events : List Occurrence) : Encounter := events.foldl step e

/-- An encounter in which nothing strikes and every question is answered kindly. -/
def undisturbed (nonce : Nonce) (id : SessionId) : List Occurrence :=
  [.start, .arrive .server, .reserved (.ok nonce), .arrive .client, .arrive .client,
    .arrive .server, .registered (.ok id), .arrive .client]

theorem stage_undisturbed (prover : Prover) (checker : Checker) (ours theirs : Hello)
    (nonce : Nonce) (id : SessionId) (hmajor : ours.version.major = theirs.version.major)
    (hverify : checker.verify nonce (prover.respond nonce ours.identity) ours.identity = true) :
    ((fresh prover checker ours theirs).run (undisturbed nonce id)).client.stage
      = .established := by
  have hours := Version.negotiate_eq_some_iff.mpr ⟨hmajor, rfl⟩
  have htheirs := Version.negotiate_eq_some_iff.mpr ⟨hmajor.symm, rfl⟩
  simp [run, undisturbed, fresh, step, clientDoes, serverDoes, Machine.start, Machine.fresh,
    Role.isServer, Machine.onMessage, Stage.terminal, Machine.serverStep, Machine.clientStep,
    Machine.compareVersions, hours, htheirs, Tended.does, Tended.told, Tended.grants,
    Machine.admitted, Machine.registered, Machine.judge, hverify, Action.message?, Action.asks,
    List.filterMap_cons]

end Encounter

end DeskLink.Handshake
