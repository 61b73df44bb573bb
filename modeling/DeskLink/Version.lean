/-!
# Protocol versions

A version is `major.minor`. Nodes of different major versions cannot talk to each other; minor
versions are compatible, and a session runs at the lower of the two.
-/

namespace DeskLink

/-- A protocol version. -/
structure Version where
  major : UInt8
  minor : UInt8
  deriving DecidableEq, Repr

namespace Version

def current : Version := ⟨1, 0⟩

instance : Inhabited Version := ⟨current⟩

def toText (v : Version) : String := s!"{v.major.toNat}.{v.minor.toNat}"

instance : ToString Version := ⟨toText⟩

/-- Two nodes can talk when their major versions agree. -/
def compatible (v w : Version) : Bool := v.major == w.major

/-- The version two nodes run at: the common major, the lower minor. -/
def negotiate (v w : Version) : Option Version :=
  if v.compatible w then some ⟨v.major, min v.minor w.minor⟩ else none

/-- Versions are ordered by major, then by minor. -/
def order (v w : Version) : Ordering :=
  (compare v.major w.major).then (compare v.minor w.minor)

theorem negotiate_eq_some_iff {v w n : Version} :
    v.negotiate w = some n ↔ v.major = w.major ∧ n = ⟨v.major, min v.minor w.minor⟩ := by
  simp only [negotiate, compatible, beq_iff_eq]
  split <;> simp_all [eq_comm]

end Version

end DeskLink
