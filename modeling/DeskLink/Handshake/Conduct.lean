import DeskLink.Handshake.Machine
import DeskLink.Link
import DeskLink.Session.Heartbeat

/-!
# Conducting a handshake

A `Conduct` carries a handshake machine over a link: it sends what the machine asks to send, asks
the registry when the machine asks for a place or a registration, and hands on what arrives. All of
it happens within a budget. When that is used up, whatever is under way is given up, the failure is
told to the other side as far as a short farewell allows, and the stream is shut.

`step` is one move. It is told what its surroundings have to offer, `Offer`, and says what it made
use of, `Effect`; no move means that it can only wait. Statements about a conduct are statements
about every list of offers.
-/

namespace DeskLink.Handshake

/-- How long the farewell after a used-up budget may take. -/
def farewellBudget : Duration := Duration.ofMillis 100

/-- What the surroundings have to offer. -/
structure Offer where
  now : Instant
  read : ReadReply
  write : WriteReply
  flush : FlushReply
  /-- What asking the registry for a place would give. -/
  reserve : Except Failure Unit
  /-- The challenge to use if a place is given. -/
  nonce : Nonce
  /-- What registering this peer at this version would give. -/
  register : Identity → Version → Except Failure SessionId

/-- What a move made use of. -/
inductive Effect where
  | none
  /-- So many bytes were read. -/
  | read (count : Nat)
  | wrote (b : Bytes)
  /-- The registry was asked for a place. -/
  | reserved
  /-- The registry was asked to register this peer. -/
  | registered (peer : Identity) (version : Version)
  /-- The stream's writing direction was shut. -/
  | shut
  deriving DecidableEq

/-- What a conduct is busy with. -/
inductive Phase where
  /-- These actions are next; with none left, the next message. -/
  | acting (pending : List Action)
  /-- A frame is on its way, and these actions come after it. -/
  | sending (t : Frame.Transmission) (pending : List Action)
  /-- The budget is used up; the report of that is on its way until this instant. -/
  | farewell (t : Frame.Transmission) (until_ : Instant) (why : Failure)
  /-- The stream is about to be shut. -/
  | shutting (why : Failure)
  | ended (result : Except Failure Outcome)

/-- A handshake on its way. -/
structure Conduct where
  machine : Machine
  link : Link
  /-- Whether there is a registry to ask. -/
  hosting : Bool
  budget : Duration
  deadline : Instant
  phase : Phase

namespace Conduct

def start (machine : Machine) (link : Link) (hosting : Bool) (budget : Duration) (now : Instant) :
    Conduct :=
  let (actions, machine) := machine.start
  ⟨machine, link, hosting, budget, now + budget, .acting actions⟩

/-- A move that made use of nothing. -/
def quietly (c : Conduct) : Option (Conduct × Effect) := some (c, .none)

/-- The machine reacted, and its actions come after those pending. -/
def react (c : Conduct) (pending : List Action) (r : Machine.Reaction) : Conduct :=
  { c with machine := r.2, phase := .acting (pending ++ r.1) }

/-- A message could not be sent. While closing that changes nothing. -/
def sendFailed (c : Conduct) (pending : List Action) (why : Failure) : Conduct :=
  if c.machine.stage.terminal then { c with phase := .acting pending }
  else c.react [] (c.machine.abort why)

/-- The failure of asking for a place where there is no registry. -/
def noPlaces : Failure := .malformed "admission requested on the connecting side"

/-- The failure of registering without a registry, a peer or a version. -/
def noRegistration : Failure := .malformed "registration requested without a validated peer"

/-- The failure of completing without knowing with whom. -/
def noPeer : Failure := .malformed "established without a peer"

def act (c : Conduct) (o : Offer) (a : Action) (pending : List Action) : Conduct × Effect :=
  match a with
  | .send m =>
    match c.link.prepare m with
    | (.ok (_, t), link) => ({ c with link, phase := .sending t pending }, .none)
    | (.error why, link) => (sendFailed { c with link } pending why, .none)
  | .reserve =>
    if c.hosting then
      match o.reserve with
      | .ok _ => (c.react pending (c.machine.admitted o.nonce), .reserved)
      | .error why => (c.react pending (c.machine.fail why), .reserved)
    else (c.react pending (c.machine.fail noPlaces), .none)
  | .register =>
    match c.hosting, c.machine.peer, c.machine.version with
    | true, some peer, some version =>
      match o.register peer version with
      | .ok id => (c.react pending (c.machine.registered id), .registered peer version)
      | .error why => (c.react pending (c.machine.fail why), .registered peer version)
    | _, _, _ => (c.react pending (c.machine.fail noRegistration), .none)
  | .establish id =>
    let c := { c with link := c.link.bind id }
    match c.machine.outcome? with
    | some outcome => ({ c with phase := .ended (.ok outcome) }, .none)
    | none => ({ c with phase := .ended (.error noPeer) }, .none)
  | .close why => ({ c with phase := .shutting why }, .none)

/-- Goes on with the next message. -/
def listen (c : Conduct) (o : Offer) : Option (Conduct × Effect) :=
  match c.link.receive o.read with
  | (.blocked, _) => none
  | (.read count, link) => some ({ c with link }, .read count)
  | (.frame none, link) => quietly { c with link }
  | (.frame (some m), link) => quietly ({ c with link }.react [] (c.machine.onMessage m))
  | (.failed why, link) => quietly ({ c with link }.react [] (c.machine.fail why))

/-- Goes on within the budget; nothing when it can only wait. -/
def drive (c : Conduct) (o : Offer) : Option (Conduct × Effect) :=
  match c.phase with
  | .acting [] => c.listen o
  | .acting (a :: pending) => some (c.act o a pending)
  | .sending t pending =>
    match t.advance o.write o.flush with
    | .blocked => none
    | .wrote b left => some ({ c with phase := .sending left pending }, .wrote b)
    | .finished => quietly { c with link := c.link.sent t.size, phase := .acting pending }
    | .failed why => quietly (c.sendFailed pending (.ofTransport why))
  | _ => none

/-- The budget is used up. -/
def expire (c : Conduct) (now : Instant) : Conduct :=
  let why := Failure.timeout c.budget.millis
  let (actions, machine) := c.machine.fail why
  let c := { c with machine }
  match actions with
  | .send m :: _ =>
    match c.link.prepare m with
    | (.ok (_, t), link) => { c with link, phase := .farewell t (now + farewellBudget) why }
    | (.error _, link) => { c with link, phase := .shutting why }
  | _ => { c with phase := .shutting why }

/-- Goes on with the farewell. -/
def part (c : Conduct) (o : Offer) (t : Frame.Transmission) (until_ : Instant) (why : Failure) :
    Option (Conduct × Effect) :=
  match t.advance o.write o.flush with
  | .blocked => if until_ ≤ o.now then quietly { c with phase := .shutting why } else none
  | .wrote b left => some ({ c with phase := .farewell left until_ why }, .wrote b)
  | .finished => quietly { c with link := c.link.sent t.size, phase := .shutting why }
  | .failed _ => quietly { c with phase := .shutting why }

/-- One move; none when there is nothing to do but wait, or when it is over. -/
def step (c : Conduct) (o : Offer) : Option (Conduct × Effect) :=
  match c.phase with
  | .ended _ => none
  | .shutting why =>
    some ({ c with machine := c.machine.finish, phase := .ended (.error why) }, .shut)
  | .farewell t until_ why => c.part o t until_ why
  | _ =>
    match c.drive o with
    | some r => some r
    | none => if c.deadline ≤ o.now then quietly (c.expire o.now) else none

/-- The instant at which waiting ends by itself. -/
def wakeup? (c : Conduct) : Option Instant :=
  match c.phase with
  | .acting _ | .sending .. => some c.deadline
  | .farewell _ until_ _ => some until_
  | _ => none

def result? (c : Conduct) : Option (Except Failure Outcome) :=
  match c.phase with
  | .ended r => some r
  | _ => none

end Conduct

end DeskLink.Handshake
