import DeskLink.Toml.Basic

/-!
# Tables under construction

A file says piece by piece what is in its tables: by headers, by keys with points, by values. Each
table must be stated only once, so a table under construction remembers how it came to be:

- `stated` by a header of its own, or as a value in braces;
- `passing` when a header of a table inside it went through it; it may still be stated;
- `dotted` when a key with points went through it; it may still be added to in that way.

`put?` adds a value under keys, `open?` and `append?` carry out headers; all of them refuse what
would state something twice.
-/

namespace DeskLink.Toml

/-- How a table came to be. -/
inductive Origin where
  | stated | passing | dotted
  deriving DecidableEq, Repr

/-- What stands under a key. -/
inductive Tree where
  | leaf (v : Value)
  | table (origin : Origin) (members : List (String × Tree))
  /-- Tables that share a name, each stated by a header in double brackets: the last one, and those
  before it, backwards. -/
  | tables (last : List (String × Tree)) (before : List (List (String × Tree)))
  deriving Inhabited

/-- The keys of a table with what stands under them. -/
abbrev Members := List (String × Tree)

namespace Members

/-- Puts something under a key in the place of what was there. -/
def set (ms : Members) (k : String) (t : Tree) : Members :=
  if ms.any (·.1 == k) then ms.map fun m ↦ if m.1 == k then (k, t) else m else ms ++ [(k, t)]

/-- Changes the table that these keys lead to. A table that is not there yet comes to be in
passing; of several tables of one name the last one is meant. -/
def change? (f : Members → Option Members) : List String → Members → Option Members
  | [], ms => f ms
  | k :: ks, ms =>
    match ms.lookup k with
    | none => (change? f ks []).map fun inside ↦ ms.set k (.table .passing inside)
    | some (.leaf _) => none
    | some (.table origin inside) =>
      (change? f ks inside).map fun inside ↦ ms.set k (.table origin inside)
    | some (.tables last before) =>
      (change? f ks last).map fun last ↦ ms.set k (.tables last before)

/-- Puts a value under a key that has none. -/
def putHere? (k : String) (v : Value) (ms : Members) : Option Members :=
  if (ms.lookup k).isSome then none else some (ms ++ [(k, .leaf v)])

/-- Puts a value under keys that lead into tables. These must be tables of keys with points, or at
least be on the way to one. -/
def put? (k : String) (v : Value) : List String → Members → Option Members
  | [], ms => putHere? k v ms
  | p :: ps, ms =>
    match ms.lookup p with
    | none => (put? k v ps []).map fun inside ↦ ms.set p (.table .dotted inside)
    | some (.table .dotted inside) =>
      (put? k v ps inside).map fun inside ↦ ms.set p (.table .dotted inside)
    | some (.table .passing inside) =>
      if ps.isEmpty then none
      else (put? k v ps inside).map fun inside ↦ ms.set p (.table .passing inside)
    | some (.tables last before) =>
      if ps.isEmpty then none
      else (put? k v ps last).map fun last ↦ ms.set p (.tables last before)
    | some (.leaf _) | some (.table .stated _) => none

/-- States a table, which may only have come to be in passing. -/
def state? (k : String) (ms : Members) : Option Members :=
  match ms.lookup k with
  | none => some (ms ++ [(k, .table .stated [])])
  | some (.table .passing inside) => some (ms.set k (.table .stated inside))
  | some _ => none

/-- States one more table of a name. -/
def append? (k : String) (ms : Members) : Option Members :=
  match ms.lookup k with
  | none => some (ms ++ [(k, .tables [] [])])
  | some (.tables last before) => some (ms.set k (.tables [] (last :: before)))
  | some _ => none

end Members

mutual

def Tree.toValue : Tree → Value
  | .leaf v => v
  | .table _ members => .table (membersToValues members)
  | .tables last before => .arr (itemsToValues [.table (membersToValues last)] before)

def membersToValues : List (String × Tree) → List (String × Value)
  | [] => []
  | (k, t) :: rest => (k, t.toValue) :: membersToValues rest

/-- The finished tables of one name, of which those before the finished ones come backwards. -/
def itemsToValues (finished : List Value) : List (List (String × Tree)) → List Value
  | [] => finished
  | ms :: rest => itemsToValues (.table (membersToValues ms) :: finished) rest

end

/-- The members that a table in braces has, when they are put one after another. -/
def Members.ofPairs? (pairs : List (List String × Value)) : Option Members :=
  pairs.foldlM (fun ms (path, v) ↦
    match path.getLast? with
    | some k => ms.put? k v path.dropLast
    | none => none) []

end DeskLink.Toml
