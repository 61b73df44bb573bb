import DeskLink.Client.Json

/-!
# A rehearsal of staying connected

A `Comeback` runs a reconnection whose calls are answered from two lists, one for connections and
one for the ends of sessions. An answer may take its time; when a list is used up, the call never
returns. Time only passes when there is nothing else to do, and then it goes straight to the next
instant at which something happens. Whoever cancels does so at the end of an instant, when
everything else that it brings has happened; and nobody cancels at the instant at which the
reconnection is given up.
-/

namespace DeskLink.Rehearsal

open Client (Backoff Reconnection)
open Session (End Ending)

/-- An answer to a call, after some milliseconds. -/
structure Timed (α : Type) where
  afterMs : Nat
  value : α

/-- What is prepared for a reconnection. -/
structure Comeback.Plan where
  target : String
  policy : Backoff
  connects : List (Timed (Except Failure SessionId))
  ends : List (Timed Ending)
  /-- Whether it is cancelled before it begins. -/
  cancelled : Bool
  /-- Milliseconds after which it is cancelled. -/
  cancelAt : Option Nat
  /-- Milliseconds after which nobody waits for it any longer. -/
  giveUp : Nat

/-- A call that was made. -/
inductive Comeback.Call where
  | establish (target : String)
  | waitClosed (session : SessionId)

def Comeback.Call.toText : Comeback.Call → String
  | establish target => "establish " ++ target
  | waitClosed id => "wait_closed " ++ id.toText

/-- The answer that is on its way, and when it arrives. -/
inductive Comeback.Awaited where
  | never
  | connection (at_ : Instant) (value : Except Failure SessionId)
  | ending (at_ : Instant) (value : Ending)

/-- The instant at which the answer arrives. -/
def Comeback.Awaited.due? : Comeback.Awaited → Option Instant
  | never => none
  | connection at_ _ => some at_
  | ending at_ _ => some at_

/-- A reconnection under way. -/
structure Comeback where
  plan : Comeback.Plan
  control : Reconnection
  awaited : Comeback.Awaited
  /-- The calls so far, the latest first. -/
  calls : List Comeback.Call
  cancelled : Bool
  now : Instant

namespace Comeback

/-- The instant so many milliseconds after the beginning. -/
def instantOf (ms : Nat) : Instant := Duration.ofMillis ms

def start (plan : Plan) : Comeback := ⟨plan, .start plan.policy, .never, [], plan.cancelled, 0⟩

/-- What there is now. -/
def offer (c : Comeback) : Reconnection.Offer where
  now := c.now
  cancelled := c.cancelled
  connected := match c.awaited with
    | .connection at_ value => if at_ ≤ c.now then some value else none
    | _ => none
  ended := match c.awaited with
    | .ending at_ value => if at_ ≤ c.now then some value else none
    | _ => none
  word := 0

def meet (c : Comeback) : Reconnection.Request → Comeback
  | .nothing => c
  | .connect =>
    let c := { c with calls := .establish c.plan.target :: c.calls }
    match c.plan.connects with
    | [] => { c with awaited := .never }
    | t :: rest =>
      { c with
        plan := { c.plan with connects := rest }
        awaited := .connection (c.now + Duration.ofMillis t.afterMs) t.value }
  | .watch id =>
    let c := { c with calls := .waitClosed id :: c.calls }
    match c.plan.ends with
    | [] => { c with awaited := .never }
    | t :: rest =>
      { c with
        plan := { c.plan with ends := rest }
        awaited := .ending (c.now + Duration.ofMillis t.afterMs) t.value }

/-- The instant at which it will be cancelled. -/
def cancelDue? (c : Comeback) : Option Instant :=
  if c.cancelled then none else c.plan.cancelAt.map instantOf

/-- The next instant at which something happens, or at which it is given up. -/
def next (c : Comeback) : Instant :=
  let instants := [c.awaited.due?, c.control.wakeup?, c.cancelDue?].filterMap id
  (instants.filter (c.now < ·)).foldl min (instantOf c.plan.giveUp)

/-- Moves, cancels and lets time pass, so many times at most, until it is over or given up. -/
def run : Nat → Comeback → Comeback
  | 0, c => c
  | fuel + 1, c =>
    match c.control.step c.offer with
    | some (control, request) => run fuel ({ c with control }.meet request)
    | none =>
      if c.control.result?.isSome || instantOf c.plan.giveUp ≤ c.now then c
      else if c.cancelDue?.any (· ≤ c.now) then run fuel { c with cancelled := true }
      else run fuel { c with now := c.next }

/-- The whole rehearsal. Every answer of the plan takes part in at most six moves: asking, time
passing until it arrives, taking it, scheduling, sleeping, and waking up. Being cancelled and
being given up take a few more. -/
def play (plan : Plan) : Comeback :=
  run (8 * (plan.connects.length + plan.ends.length + 4)) (start plan)

def elapsedMs (c : Comeback) : Nat := c.now / 1000000

/-! ## JSON -/

/-- An answer and its time, from an object. -/
def Timed.ofJson? {α : Type} (f : Json → Option α) (j : Json) : Option (Timed α) :=
  (f j).map fun v ↦ ⟨(j.natAt? "after_ms").getD 0, v⟩

def timedAt? {α : Type} (f : Json → Option α) (j : Json) (key : String) :
    Option (List (Timed α)) :=
  (((j.get? key).bind Json.arr?).getD []).mapM (Timed.ofJson? f)

/-- An established session, or a failure. -/
def connectionOfJson? (j : Json) : Option (Except Failure SessionId) :=
  match (j.get? "session_id"), j.get? "kind" with
  | some id, none => (SessionId.ofJson? id).map .ok
  | _, _ => (Failure.ofJson? j).map .error

def endingOfJson? (j : Json) : Option Ending :=
  match End.ofJson? j with
  | some e => some (.ok e)
  | none => (Failure.ofJson? j).map .error

/-- The plan that an object describes. Waits are not spread. -/
def Plan.ofJson? (j : Json) : Option Plan := do
  let flag (key : String) : Bool := ((j.get? key).bind Json.bool?).getD false
  let d : Backoff := { Backoff.standard with jitter := .ofFloat 0.0 }
  let cancelAt := if flag "drop_cancel" then none else j.natAt? "cancel_at_ms"
  some {
    target := (j.strAt? "target").getD "server"
    policy := .ofJson d ((j.get? "policy").getD .null)
    connects := ← timedAt? connectionOfJson? j "connects"
    ends := ← timedAt? endingOfJson? j "closes"
    cancelled := flag "cancelled"
    cancelAt
    giveUp := (j.natAt? "give_up_ms").getD 100000000 }

/-- What the rehearsal has shown; `quiet` when nobody listens to reports, and `aloof` when calls
do not count. -/
def toJson (c : Comeback) ( quiet aloof : Bool) : Json :=
  .obj [("outcome", match c.control.result? with
      | some r => Reconnection.resultToJson r
      | none => .str "stalled"),
    ("events", if quiet then .arr [] else .arr (c.control.events.map Reconnection.Event.toJson)),
    ("calls", if aloof then .null else .arr (c.calls.reverse.map fun k ↦ .str k.toText)),
    ("elapsed_ms", .nat c.elapsedMs)]

end Comeback

end DeskLink.Rehearsal
