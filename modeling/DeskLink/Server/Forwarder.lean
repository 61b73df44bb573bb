import DeskLink.Server.Registry
import DeskLink.Session.Outlet

/-!
# Forwarding captured input

Captured events go to one session: the one that has been pinned, as long as it is registered, and
the newest otherwise. An event that finds its session's queue full of events that must not be
dropped waits for room. A `Pump` takes captured events in order and waits with them.
-/

namespace DeskLink.Server

open Session (Outlet Handed)

/-- The session that events go to, for this pin. -/
def target (r : Registry) (pin : Option SessionId) : Option SessionId :=
  match pin with
  | some id => if (r.find? id).isSome then some id else r.newest
  | none => r.newest

/-- Pins a session, which must be registered, or none. -/
def setFocus (r : Registry) (id : Option SessionId) : Except Failure (Option SessionId) :=
  match id with
  | none => .ok none
  | some id => if (r.find? id).isSome then .ok (some id) else .error (.notFound id)

/-- The outlets with one of them changed. -/
def setOutlet (outlets : List Outlet) (key : Nat) (out : Outlet) : List Outlet :=
  outlets.set key out

theorem setOutlet_self {outlets : List Outlet} {key : Nat} {out : Outlet}
    (hout : outlets[key]? = some out) : setOutlet outlets key out = outlets := by
  obtain ⟨hlt, rfl⟩ := List.getElem?_eq_some_iff.mp hout
  exact List.set_getElem_self hlt

/-- Puts an event into the queue with this key; the session is named in the refusal. -/
def handTo (outlets : List Outlet) (key : Nat) (id : SessionId) (e : Event) :
    Handed × List Outlet :=
  match outlets[key]? with
  | none => (.refused (.notFound id), outlets)
  | some out =>
    let (handed, out) := out.hand id e
    (handed, setOutlet outlets key out)

/-- What became of one forwarded event. -/
inductive Forwarded where
  | pushed (outcome : PushOutcome)
  /-- There was no session to receive it. -/
  | nobody
  | refused (why : Failure)
  deriving DecidableEq

/-- Events on their way to whichever session is the target when each one's turn comes. -/
structure Pump where
  /-- An event that waits for room in the queue with this key. -/
  held : Option (Event × SessionId × Nat)
  /-- The events after it. -/
  coming : List Event
  /-- What became of the events so far. -/
  results : List Forwarded
  deriving DecidableEq

namespace Pump

def start (events : List Event) : Pump := ⟨none, events, []⟩

/-- Everything has been forwarded. -/
def finished (p : Pump) : Bool := p.held.isNone && p.coming.isEmpty

/-- The events that found a session and were taken by its queue's policy. -/
def count (p : Pump) : Nat :=
  (p.results.filter fun f ↦ match f with
    | .pushed _ => true
    | _ => false).length

def note (p : Pump) (f : Forwarded) : Pump := { p with held := none, results := p.results ++ [f] }

/-- Tries to hand on the event that waits. -/
def retry (p : Pump) (outlets : List Outlet) (e : Event) (id : SessionId) (key : Nat) :
    Option (Pump × List Outlet) :=
  match handTo outlets key id e with
  | (.done outcome, outlets) => some (p.note (.pushed outcome), outlets)
  | (.refused why, outlets) => some (p.note (.refused why), outlets)
  | (.wait, _) => none

/-- One move; none when there is nothing to do but wait, or when all is forwarded. -/
def step (p : Pump) (r : Registry) (pin : Option SessionId) (outlets : List Outlet) :
    Option (Pump × List Outlet) :=
  match p.held with
  | some (e, id, key) => p.retry outlets e id key
  | none =>
    match p.coming with
    | [] => none
    | e :: coming =>
      let p := { p with coming }
      match target r pin with
      | none => some (p.note .nobody, outlets)
      | some id =>
        match r.control id with
        | none => some (p.note (.refused (.notFound id)), outlets)
        | some key => some ({ p with held := some (e, id, key) }, outlets)

end Pump

end DeskLink.Server
