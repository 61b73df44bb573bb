import DeskLink.Client.Guest

/-!
# Attempts to connect

An `Attempt` is one call that is to connect a client. It first closes the session that the client
is connected by and waits for its end; then it dials; then it conducts the handshake. Dialling and
handshake share one budget. Several attempts may be under way at a time, each at its own step.

A client knows nothing of addresses and networks: dialling is somebody else's, and the attempt only
sees its answers.
-/

namespace DeskLink.Client

open Handshake (Conduct Machine Registrar)

/-- The answer to dialling. -/
inductive DialReply where
  | notReady
  /-- There is a stream; this is its number. -/
  | connected (stream : Nat)
  | failed (text : String)
  deriving DecidableEq, Repr

/-- What an attempt is busy with. -/
inductive Attempt.Phase where
  | starting
  /-- Waits for the end of the run with this key. -/
  | closing (key : Nat)
  /-- Waits for a stream, until this instant. -/
  | dialing (deadline : Instant)
  | negotiating (c : Conduct) (stream : Nat)
  | ended (result : Except Failure SessionId)

/-- A call that is to connect a client. -/
structure Attempt where
  address : String
  phase : Attempt.Phase

namespace Attempt

def start (address : String) : Attempt := ⟨address, .starting⟩

def result? (a : Attempt) : Option (Except Failure SessionId) :=
  match a.phase with
  | .ended r => some r
  | _ => none

/-- The stream that it holds. -/
def stream? (a : Attempt) : Option Nat :=
  match a.phase with
  | .negotiating _ s => some s
  | _ => none

/-- The instant at which waiting ends by itself. -/
def wakeup? (a : Attempt) : Option Instant :=
  match a.phase with
  | .dialing deadline => some deadline
  | .negotiating c _ => c.wakeup?
  | _ => none

/-- Starts dialling; earlier errors are forgotten. -/
def dial (a : Attempt) (g : Guest) (now : Instant) : Guest × Attempt :=
  ({ g with lastError := none }, { a with phase := .dialing (now + g.tuning.handshake) })

def fail (a : Attempt) (g : Guest) (why : Failure) : Guest × Attempt :=
  ({ g with lastError := some why }, { a with phase := .ended (.error why) })

/-- The failure when there is no stream. -/
def refused (address text : String) : Failure := .lost s!"connect to {address} failed: {text}"

/-- The failure when there is no stream in time. -/
def unanswered (address : String) (budget : Duration) : Failure :=
  let ms := budget.millis
  .lost s!"connect to {address} timed out after {ms} ms"

/-- The handshake over a new stream, within what is left of the budget. -/
def negotiate (g : Guest) (deadline now : Instant) : Conduct :=
  let link := Link.new g.own.version.major g.tuning.maxFrame
  Conduct.start (Machine.fresh (.client g.prover) g.own) link false (deadline - now) now

/-- One move; none when there is nothing to do but wait, or when it is over. `e` is this side's
end of the stream that the attempt holds. -/
def step (a : Attempt) (g : Guest) (now : Instant) (answer : DialReply) (e : Endpoint) :
    Option (Guest × Attempt × Endpoint) :=
  match a.phase with
  | .ended _ => none
  | .starting =>
    match g.active with
    | some act =>
      some (g.askToClose act.run .userInitiated, { a with phase := .closing act.run }, e)
    | none =>
      let (g, a) := a.dial g now
      some (g, a, e)
  | .closing key =>
    (g.ended? key).map fun _ ↦
      let (g, a) := a.dial g now
      (g, a, e)
  | .dialing deadline =>
    match answer with
    | .connected stream =>
      some (g, { a with phase := .negotiating (negotiate g deadline now) stream }, e)
    | .failed text =>
      let (g, a) := a.fail g (refused a.address text)
      some (g, a, e)
    | .notReady =>
      if deadline ≤ now then
        let (g, a) := a.fail g (unanswered a.address g.tuning.handshake)
        some (g, a, e)
      else none
  | .negotiating c stream =>
    match c.result? with
    | some (.ok outcome) =>
      some (g.begin outcome.session c.link stream now,
        { a with phase := .ended (.ok outcome.session) }, e)
    | some (.error why) =>
      let (g, a) := a.fail g why
      some (g, a, e.drop)
    | none =>
      (c.move now .absent e).map fun (c, _, e) ↦ (g, { a with phase := .negotiating c stream }, e)

end Attempt

end DeskLink.Client
