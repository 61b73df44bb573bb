/-!
# Sequence numbers

Each direction of a session numbers its messages from one. The sender's `Counter` refuses to go
past the largest number instead of starting over, because the receiver's `Guard` accepts only
numbers above every number it has accepted; whatever is not above is a duplicate or late.
-/

namespace DeskLink.Sequence

/-- The largest sequence number. -/
def top : Nat := 4294967295

/-- The numbers given out so far, by the last of them; zero before the first. -/
structure Counter where
  last : UInt32
  deriving DecidableEq, Repr

namespace Counter

def start : Counter := ⟨0⟩

/-- The next number and the counter after it; none when the numbers are used up. -/
def next? (c : Counter) : Option (UInt32 × Counter) :=
  if c.last.toNat < top then some (c.last + 1, ⟨c.last + 1⟩) else none

/-- The counter after `n` requests for a number. -/
def after (c : Counter) (n : Nat) : Counter := ⟨UInt32.ofNat (min (c.last.toNat + n) top)⟩

/-- What the last of `n` requests gives; nothing when there are none. -/
def nth? (c : Counter) (n : Nat) : Option UInt32 :=
  match n with
  | 0 => none
  | n + 1 => ((c.after n).next?).map (·.1)

theorem toNat_last_le (c : Counter) : c.last.toNat ≤ top := by
  have := c.last.toNat_lt
  simp only [top]
  omega

@[simp] theorem toNat_last_after (c : Counter) (n : Nat) :
    (c.after n).last.toNat = min (c.last.toNat + n) top := by
  have hle : min (c.last.toNat + n) top ≤ top := Nat.min_le_right ..
  simp only [after, top] at *
  rw [UInt32.toNat_ofNat_of_lt']
  simp only [UInt32.size]
  omega

@[simp] theorem after_zero (c : Counter) : c.after 0 = c := by
  have hle := c.toNat_last_le
  cases c
  simp_all [after]

private theorem eq_of_toNat_last {c d : Counter} (h : c.last.toNat = d.last.toNat) : c = d := by
  cases c
  cases d
  simpa [UInt32.toNat_inj] using h

/-- One more request moves the counter on as long as there is a number left. -/
theorem after_succ (c : Counter) (n : Nat) :
    c.after (n + 1) = (((c.after n).next?).map (·.2)).getD (c.after n) := by
  have hle := c.toNat_last_le
  apply eq_of_toNat_last
  unfold next?
  split <;> rename_i h <;> rw [toNat_last_after] at h
  · have hone : ((c.after n).last + 1).toNat = (c.after n).last.toNat + 1 := by
      rw [UInt32.toNat_add, toNat_last_after, UInt32.toNat_one]
      simp only [top] at *
      omega
    simp only [Option.map_some, Option.getD_some, toNat_last_after, hone]
    omega
  · simp only [Option.map_none, Option.getD_none, toNat_last_after]
    omega

end Counter

/-- The numbers accepted so far, by the greatest of them. -/
structure Guard where
  lastSeen : UInt32
  deriving DecidableEq, Repr

namespace Guard

def start : Guard := ⟨0⟩

/-- The guard after accepting `seq`; none when it must be refused. -/
def accept? (g : Guard) (seq : UInt32) : Option Guard :=
  if g.lastSeen < seq then some ⟨seq⟩ else none

end Guard

end DeskLink.Sequence
