import DeskLink.Number.Binary

/-!
# TOML values

What a configuration file holds: a table of keys with values, some of which are tables again. A
point in time is kept as no more than that, since nothing here has a use for one.
-/

namespace DeskLink.Toml

/-- A value of a configuration file. -/
inductive Value where
  | str (s : String)
  | int (n : Int)
  | real (x : Double)
  | bool (b : Bool)
  /-- A date, a time, or both. -/
  | time
  | arr (items : List Value)
  | table (members : List (String × Value))
  deriving Inhabited

namespace Value

def str? : Value → Option String
  | str s => some s
  | _ => none

/-- The number below `bound`, when the value is one. -/
def natBelow? (bound : Nat) : Value → Option Nat
  | int n => if 0 ≤ n ∧ n < bound then some n.toNat else none
  | _ => none

/-- The real number; a whole one is as good. -/
def real? : Value → Option Double
  | real x => some x
  | int n => some (.ofFloat (Float.ofInt n))
  | _ => none

/-- The fields of a record with these names: those of a table by their names, those of an array in
order. A field that is missing is given as none. A point in time counts as a table without any of
the fields. -/
def fields? (names : List String) : Value → Option (List (Option Value))
  | table members => some (names.map fun n ↦ members.lookup n)
  | arr items => some ((List.range names.length).map fun i ↦ items[i]?)
  | time => some (names.map fun _ ↦ none)
  | _ => none

end Value

end DeskLink.Toml
