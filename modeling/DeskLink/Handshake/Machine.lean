import DeskLink.Credential
import DeskLink.Failure

/-!
# The handshake as a machine

Both sides of a connection run a machine that never touches a stream or a clock. It is told what
happened, and answers with the actions its owner must carry out, in order:

    server   connected       -- hello -->     says hello, compares versions   helloExchanged
             helloExchanged  -- admitted -->  sends the challenge             authPending
             authPending     -- answer -->    checks it, asks to register
             authPending     -- registered -> sends the verdict               established

    client   connected       -- hello -->     compares versions               helloExchanged
             helloExchanged  -- challenge ->  sends the answer                authPending
             authPending     -- verdict -->                                   established

Versions are compared before any credential is made or checked, a nonce is spent on the first
answer, and every failure leads to `closing`. `fail` tells the other side first, when there is a
code for the failure; `abort` does not.
-/

namespace DeskLink.Handshake

/-- How far a connection has come. -/
inductive Stage where
  | connected | helloExchanged | authPending | established | closing | closed
  deriving DecidableEq, Repr

namespace Stage

def name : Stage → String
  | connected => "Connected" | helloExchanged => "HelloExchanged" | authPending => "AuthPending"
  | established => "Established" | closing => "Closing" | closed => "Closed"

/-- Nothing more happens. -/
def terminal : Stage → Bool
  | closing | closed => true
  | _ => false

end Stage

/-- Which side a machine plays. -/
inductive Role where
  | client (prover : Prover)
  | server (checker : Checker)

def Role.isServer : Role → Bool
  | .client _ => false
  | .server _ => true

/-- What the owner of a machine must do. -/
inductive Action where
  | send (m : Message)
  /-- Reserve a place, then call `admitted` or `fail`. -/
  | reserve
  /-- Register the session, then call `registered` or `fail`. -/
  | register
  /-- The session is up. -/
  | establish (session : SessionId)
  /-- Close the connection; this is why. -/
  | close (why : Failure)
  deriving DecidableEq

/-- One side of a handshake. -/
structure Machine where
  role : Role
  own : Hello
  stage : Stage
  peer : Option Identity
  /-- The version both sides will run at. -/
  version : Option Version
  /-- The challenge that is open. -/
  nonce : Option Nonce
  session : Option SessionId
  /-- Why the machine is closing. -/
  failure : Option Failure

/-- What comes of a completed handshake. -/
structure Outcome where
  session : SessionId
  peer : Identity
  version : Version
  deriving DecidableEq

namespace Machine

def fresh (role : Role) (own : Hello) : Machine :=
  ⟨role, own, .connected, none, none, none, none, none⟩

/-- A machine and what its owner must do. -/
abbrev Reaction := List Action × Machine

def idle (m : Machine) : Reaction := ([], m)

/-- The client speaks first. -/
def start (m : Machine) : Reaction :=
  if m.stage = .connected ∧ m.role.isServer = false then ([.send (.hello m.own)], m) else m.idle

/-- Starts closing without telling the other side; nothing once closing. -/
def abort (m : Machine) (why : Failure) : Reaction :=
  if m.stage.terminal then m.idle
  else ([.close why], { m with stage := .closing, failure := some why })

/-- Starts closing, after telling the other side when there is a code; nothing once closing. -/
def fail (m : Machine) (why : Failure) : Reaction :=
  if m.stage.terminal then m.idle
  else
    let (actions, m) := m.abort why
    ((why.report?.map fun r ↦ Action.send (.report r)).toList ++ actions, m)

/-- A message that has no place at this stage. -/
def unexpected (m : Machine) (kind : Kind) : Reaction :=
  m.fail (.malformed s!"unexpected {kind.name} while {m.stage.name}")

/-- Compares versions after the other side's hello. -/
def compareVersions (m : Machine) (h : Hello) (agreed : List Action) : Reaction :=
  let m := { m with peer := some h.identity }
  match m.own.version.negotiate h.version with
  | some v => (agreed, { m with version := some v, stage := .helloExchanged })
  | none => m.fail (.versionMismatch m.own.version (some h.version))

/-- Judges an answer; whatever the verdict, the nonce is spent. -/
def judge (m : Machine) (checker : Checker) (credential : Bytes) : Reaction :=
  let verdict := match m.nonce, m.peer with
    | some nonce, some peer => checker.verify nonce credential peer
    | _, _ => false
  let m := { m with nonce := none }
  if verdict then ([.register], m)
  else
    let (actions, m) := m.abort .authFailed
    (.send (.authResult ⟨false, none⟩) :: actions, m)

/-- The server's reaction to a message that is neither a report nor a close notice. -/
def serverStep (m : Machine) (checker : Checker) (msg : Message) : Reaction :=
  match m.stage, msg with
  | .connected, .hello h =>
    let (actions, m) := m.compareVersions h [.reserve]
    (.send (.hello m.own) :: actions, m)
  | .authPending, .auth (.response credential) => m.judge checker credential
  | _, msg => m.unexpected msg.kind

/-- The client's reaction to a message that is neither a report nor a close notice. -/
def clientStep (m : Machine) (prover : Prover) (msg : Message) : Reaction :=
  match m.stage, msg with
  | .connected, .hello h => m.compareVersions h []
  | .helloExchanged, .auth (.challenge nonce) =>
    ([.send (.auth (.response (prover.respond nonce m.own.identity)))],
      { m with stage := .authPending })
  | .authPending, .authResult ⟨true, some id⟩ =>
    ([.establish id], { m with session := some id, stage := .established })
  | .authPending, .authResult _ => m.abort .authFailed
  | _, msg => m.unexpected msg.kind

/-- The reaction to a message from the other side. -/
def onMessage (m : Machine) (msg : Message) : Reaction :=
  if m.stage.terminal then m.idle
  else match msg with
    | .report r => m.abort (Failure.ofReport m.own.version r)
    | .close reason => m.abort (.lost s!"peer closed during handshake ({reason.name})")
    | msg =>
      match m.role with
      | .server checker => m.serverStep checker msg
      | .client prover => m.clientStep prover msg

/-- The server's place is reserved: the challenge goes out. -/
def admitted (m : Machine) (nonce : Nonce) : Reaction :=
  if m.role.isServer = true ∧ m.stage = .helloExchanged then
    ([.send (.auth (.challenge nonce))], { m with nonce := some nonce, stage := .authPending })
  else m.idle

/-- The server has registered the session: the client is told its name. -/
def registered (m : Machine) (id : SessionId) : Reaction :=
  if m.role.isServer = true ∧ m.stage = .authPending then
    ([.send (.authResult ⟨true, some id⟩), .establish id],
      { m with session := some id, stage := .established })
  else m.idle

/-- The connection is gone. -/
def finish (m : Machine) : Machine := { m with stage := .closed }

/-- What the handshake has come to, once everything about the session is known. -/
def outcome? (m : Machine) : Option Outcome := do
  some ⟨← m.session, ← m.peer, ← m.version⟩

end Machine

end DeskLink.Handshake
