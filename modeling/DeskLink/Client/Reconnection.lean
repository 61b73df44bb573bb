import DeskLink.Client.Backoff
import DeskLink.Session.Worker

/-!
# Staying connected

A `Reconnection` keeps a session alive. It asks for a connection and then for the end of the
session. When either is a lost connection, it waits and asks again; when the session was closed
gracefully, or anything else went wrong, it stops. After so many losses in a row it gives up.

    connecting ── connected ──▸ watching ── closed ──▸ stop
        │                          │
        ╰────────── lost ──────────╯
                     ▾
                  sleeping ──▸ connecting

It may be cancelled at any time. `step` is one move: it is told what there is, and says what it
asks for. Whoever cancels drops what was asked for.
-/

namespace DeskLink.Client

open Session (End Ending)

namespace Reconnection

/-- How it ended without an error. -/
inductive Outcome where
  | cancelled
  | closed (e : End)
  deriving DecidableEq, Repr

/-- A report of progress. -/
inductive Event where
  | established (session : SessionId)
  | lost (why : Failure)
  | retry (attempt : Nat) (delay : Duration)
  | gaveUp (attempts : Nat)
  deriving DecidableEq

/-- What it is busy with. -/
inductive Phase where
  /-- About to ask for a connection. -/
  | connect
  /-- Waits for the connection. -/
  | connecting
  /-- About to ask for the end of this session. -/
  | watch (session : SessionId)
  /-- Waits for the end of this session. -/
  | watching (session : SessionId)
  | sleeping (until_ : Instant)
  | ended (result : Except Failure Outcome)

/-- What there is. -/
structure Offer where
  now : Instant
  cancelled : Bool
  /-- The connection that was asked for. -/
  connected : Option (Except Failure SessionId)
  /-- The end that was asked for. -/
  ended : Option Ending
  /-- Chooses the spread of a wait. -/
  word : UInt64

/-- What a move asks for. -/
inductive Request where
  | nothing
  | connect
  | watch (session : SessionId)
  deriving DecidableEq

end Reconnection

open Reconnection in
/-- A client on its way to stay connected. -/
structure Reconnection where
  policy : Backoff
  /-- Losses since a session was last established. -/
  attempt : UInt32
  phase : Phase
  /-- What has been reported so far. -/
  events : List Reconnection.Event

namespace Reconnection

def start (policy : Backoff) : Reconnection := ⟨policy, 0, .connect, []⟩

def result? (r : Reconnection) : Option (Except Failure Outcome) :=
  match r.phase with
  | .ended result => some result
  | _ => none

/-- The instant at which waiting ends by itself. -/
def wakeup? (r : Reconnection) : Option Instant :=
  match r.phase with
  | .sleeping until_ => some until_
  | _ => none

def report (r : Reconnection) (e : Event) : Reconnection := { r with events := r.events ++ [e] }

/-- It is over. -/
def stop (r : Reconnection) (result : Except Failure Outcome) : Reconnection :=
  { r with phase := .ended result }

/-- The number of the next attempt; it does not grow beyond the greatest. -/
def nextAttempt (r : Reconnection) : UInt32 :=
  if r.attempt.toNat + 1 < UInt32.size then r.attempt + 1 else r.attempt

/-- Whether this attempt is one too many. -/
def spent (r : Reconnection) (attempt : UInt32) : Bool :=
  match r.policy.maxAttempts with
  | some limit => limit < attempt
  | none => false

/-- Something went wrong: waits for the next attempt, or stops. -/
def recover (r : Reconnection) (why : Failure) (now : Instant) (word : UInt64) : Reconnection :=
  if why.retryable then
    let attempt := r.nextAttempt
    let r := { r with attempt }.report (.lost why)
    if r.spent attempt then
      (r.report (.gaveUp (attempt.toNat - 1))).stop (.error why)
    else
      let delay := r.policy.delay attempt word
      { r.report (.retry attempt.toNat delay) with phase := .sleeping (now + delay) }
  else r.stop (.error why)

/-- One move when it is not cancelled. -/
def proceed (r : Reconnection) (o : Offer) : Option (Reconnection × Request) :=
  match r.phase with
  | .connect => some ({ r with phase := .connecting }, .connect)
  | .connecting =>
    o.connected.map fun c ↦ match c with
      | .ok id =>
        ({ r with attempt := 0, phase := .watch id }.report (.established id), .nothing)
      | .error why => (r.recover why o.now o.word, .nothing)
  | .watch id => some ({ r with phase := .watching id }, .watch id)
  | .watching _ =>
    o.ended.map fun e ↦ match e with
      | .ok e => (r.stop (.ok (.closed e)), .nothing)
      | .error why => (r.recover why o.now o.word, .nothing)
  | .sleeping until_ =>
    if until_ ≤ o.now then some ({ r with phase := .connect }, .nothing) else none
  | .ended _ => none

/-- One move; none when there is nothing to do but wait, or when it is over. -/
def step (r : Reconnection) (o : Offer) : Option (Reconnection × Request) :=
  match r.phase with
  | .ended _ => none
  | _ => if o.cancelled then some (r.stop (.ok .cancelled), .nothing) else r.proceed o

end Reconnection

end DeskLink.Client
