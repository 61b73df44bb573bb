import DeskLink.Input.Queue

/-!
# Injecting events

Events from the other side are handed to an `Injector`, which replays them on this machine. It may
refuse one; that is counted and does not disturb the session.
-/

namespace DeskLink

/-- Replays an event on this machine, or says why it cannot. -/
abbrev Injector := Event → Except String Unit

namespace Injector

def complaint (why : String) : String := s!"input injection failed: {why}"

def accepting : Injector := fun _ ↦ .ok ()

def withoutKeyboard : Injector := fun e ↦ if e.isKey then .error "no keyboard" else .ok ()

/-- Takes nothing. -/
def broken : Injector := fun _ ↦ .error "simulated platform failure"

end Injector

/-- What became of the events from the other side. -/
structure Router where
  delivered : Nat
  failed : Nat
  deriving DecidableEq, Repr

namespace Router

def start : Router := ⟨0, 0⟩

def deliver (r : Router) (inject : Injector) (e : Event) : Router :=
  match inject e with
  | .ok _ => { r with delivered := r.delivered + 1 }
  | .error _ => { r with failed := r.failed + 1 }

end Router

end DeskLink
