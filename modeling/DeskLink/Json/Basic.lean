/-!
# JSON values

The values that consoles read and write. A number is an integer when it is written as one and
fits 64 bits, and a real otherwise; the distinction matters, because a field that wants an integer
refuses a real, whatever its value. An object is a list of members with pairwise different keys, a
later member replacing an earlier one of the same key.
-/

namespace DeskLink

/-- A JSON value. -/
inductive Json where
  | null
  | bool (b : Bool)
  | int (n : Int)
  | real (x : Float)
  | str (s : String)
  | arr (items : List Json)
  | obj (members : List (String × Json))
  deriving Inhabited

namespace Json

def setMember (members : List (String × Json)) (key : String) (v : Json) : List (String × Json) :=
  if members.any (·.1 == key) then members.map fun m ↦ if m.1 == key then (key, v) else m
  else members ++ [(key, v)]

def get? (j : Json) (key : String) : Option Json :=
  match j with
  | obj members => (members.find? (·.1 == key)).map (·.2)
  | _ => none

def int? : Json → Option Int
  | int n => some n
  | _ => none

/-- The integer, when the value is one of at least `low` and at most `high`. -/
def intIn? (low high : Int) : Json → Option Int
  | int n => if low ≤ n ∧ n ≤ high then some n else none
  | _ => none

/-- The natural number below `bound`, when the value is one. -/
def natBelow? (bound : Nat) (j : Json) : Option Nat :=
  (j.intIn? 0 (bound - 1)).map Int.toNat

def str? : Json → Option String
  | str s => some s
  | _ => none

/-- The truth value, when the value is one. -/
def bool? : Json → Option Bool
  | bool b => some b
  | _ => none

/-- The items, when the value is an array. -/
def arr? : Json → Option (List Json)
  | arr items => some items
  | _ => none

/-- The members, when the value is an object. -/
def obj? : Json → Option (List (String × Json))
  | obj members => some members
  | _ => none

def ofOption {α : Type} (f : α → Json) : Option α → Json
  | some a => f a
  | none => null

def nat (n : Nat) : Json := int n

end Json

end DeskLink
