import DeskLink.Client.Attempt
import DeskLink.Client.Reconnection

/-!
# Keeping a client connected

A `Keeper` is a reconnection whose requests are met by a client: the connection that it asks for is
an `Attempt`, and the end that it asks for is that of the client's session. When it is cancelled,
an attempt under way is dropped with its stream, and the session that the client is connected by is
closed and waited for.
-/

namespace DeskLink.Client

/-- What a keeper is waiting for. -/
inductive Keeper.Call where
  | nothing
  | attempt (a : Attempt)
  | waiting (w : Guest.Waiting)
  /-- The end of the run with this key, after cancellation. -/
  | closing (key : Nat)

/-- A client being kept connected. -/
structure Keeper where
  address : String
  control : Reconnection
  call : Keeper.Call
  /-- How it ended. -/
  result : Option (Except Failure Reconnection.Outcome)

namespace Keeper

def start (address : String) (policy : Backoff) : Keeper := ⟨address, .start policy, .nothing, none⟩

def stream? (k : Keeper) : Option Nat :=
  match k.call with
  | .attempt a => a.stream?
  | _ => none

/-- The instant at which waiting ends by itself. -/
def wakeup? (k : Keeper) : Option Instant :=
  match k.call with
  | .attempt a => a.wakeup? <|> k.control.wakeup?
  | _ => k.control.wakeup?

/-- What there is for the reconnection. -/
def offer (k : Keeper) (g : Guest) (now : Instant) (cancelled : Bool) (word : UInt64) :
    Reconnection.Offer where
  now := now
  cancelled := cancelled
  connected := match k.call with
    | .attempt a => a.result?
    | _ => none
  ended := match k.call with
    | .waiting w => w.result? g
    | _ => none
  word := word

/-- The keeper after a request. -/
def meet (k : Keeper) (g : Guest) : Reconnection.Request → Keeper
  | .nothing => k
  | .connect => { k with call := .attempt (.start k.address) }
  | .watch id => { k with call := .waiting (g.wait id) }

/-- The end of the stream that a dropped attempt held. -/
def dropStream (k : Keeper) (e : Endpoint) : Endpoint :=
  if k.stream?.isSome then e.drop else e

/-- Closes what is left after the reconnection is over. -/
def finish (k : Keeper) (g : Guest) (result : Except Failure Reconnection.Outcome)
    (e : Endpoint) : Option (Guest × Keeper × Endpoint) :=
  match k.call, result with
  | .closing key, _ => (g.ended? key).map fun _ ↦ (g, { k with result := some result }, e)
  | _, .ok .cancelled =>
    let e := k.dropStream e
    match g.active with
    | some a =>
      some (g.askToClose a.run .userInitiated, { k with call := .closing a.run }, e)
    | none => some (g, { k with call := .nothing, result := some result }, e)
  | _, _ => some (g, { k with call := .nothing, result := some result }, e)

/-- One move; none when there is nothing to do but wait, or when it is over. `e` is this side's
end of the stream that the keeper holds. -/
def step (k : Keeper) (g : Guest) (now : Instant) (cancelled : Bool) (word : UInt64)
    (answer : DialReply) (e : Endpoint) : Option (Guest × Keeper × Endpoint) :=
  match k.result, k.control.result? with
  | some _, _ => none
  | none, some result => k.finish g result e
  | none, none =>
    match k.control.step (k.offer g now cancelled word) with
    | some (control, request) =>
      some (g, { k with control }.meet g request, e)
    | none =>
      match k.call with
      | .attempt a =>
        (a.step g now answer e).map fun (g, a, e) ↦ (g, { k with call := .attempt a }, e)
      | _ => none

end Keeper

end DeskLink.Client
