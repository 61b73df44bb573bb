/-!
# Byte strings

Everything that crosses the wire is a list of bytes. Lists rather than packed arrays, because the
statements about the wire are about concatenation, `take` and `drop`, and those are the list
operations with a theory.

Numbers travel big-endian, most significant byte first, in a fixed number of bytes.
-/

namespace DeskLink

/-- A string of bytes. -/
abbrev Bytes := List UInt8

namespace Bytes

/-! ## Big-endian numbers -/

/-- `n` in `width` bytes, most significant first; higher digits are cut off. -/
def ofNat : Nat → Nat → Bytes
  | 0, _ => []
  | width + 1, n => ofNat width (n / 256) ++ [UInt8.ofNat n]

/-- The number a byte string spells, most significant byte first. -/
def toNat (b : Bytes) : Nat :=
  b.foldl (fun n x ↦ n * 256 + x.toNat) 0

@[simp] theorem length_ofNat (width n : Nat) : (ofNat width n).length = width := by
  induction width generalizing n with
  | zero => rfl
  | succ width ih => simp [ofNat, ih]

theorem toNat_append_singleton (b : Bytes) (x : UInt8) :
    toNat (b ++ [x]) = toNat b * 256 + x.toNat := by
  simp [toNat]

theorem toNat_ofNat (width n : Nat) : toNat (ofNat width n) = n % 1 <<< (8 * width) := by
  induction width generalizing n with
  | zero => simp [ofNat, toNat, Nat.mod_one]
  | succ width ih =>
    have hwidth : 1 <<< (8 * (width + 1)) = 256 * 1 <<< (8 * width) := by
      rw [Nat.mul_succ, Nat.shiftLeft_add, Nat.shiftLeft_eq _ 8, Nat.mul_comm]
    have hmod : n % 1 <<< (8 * (width + 1)) =
        n % 256 + 256 * (n / 256 % 1 <<< (8 * width)) := by
      rw [hwidth, Nat.mod_mul]
    have hlow : (UInt8.ofNat n).toNat = n % 256 := by simp
    rw [ofNat, toNat_append_singleton, ih, hmod, hlow]
    omega

/-! ## Slices -/

/-- The `n` bytes from `offset` on, when all of them are there. -/
def slice? (b : Bytes) (offset n : Nat) : Option Bytes :=
  let s := (b.drop offset).take n
  if s.length = n then some s else none

theorem length_of_slice? {b s : Bytes} {offset n : Nat} (h : b.slice? offset n = some s) :
    s.length = n := by
  unfold slice? at h
  grind

/-! ## Hexadecimal text -/

/-- The lower-case hexadecimal digit of a number below sixteen. -/
def lowerDigit (n : Nat) : Char :=
  if n < 10 then Char.ofNat (48 + n) else Char.ofNat (87 + n)

/-- The upper-case hexadecimal digit of a number below sixteen. -/
def upperDigit (n : Nat) : Char :=
  if n < 10 then Char.ofNat (48 + n) else Char.ofNat (55 + n)

/-- The value of a hexadecimal digit of either case. -/
def digitValue? (c : Char) : Option Nat :=
  if '0' ≤ c && c ≤ '9' then some (c.toNat - 48)
  else if 'a' ≤ c && c ≤ 'f' then some (c.toNat - 87)
  else if 'A' ≤ c && c ≤ 'F' then some (c.toNat - 55)
  else none

/-- Two lower-case digits for each byte. -/
def toHex (b : Bytes) : String :=
  String.ofList (b.flatMap fun x ↦ [lowerDigit (x.toNat / 16), lowerDigit (x.toNat % 16)])

/-- The bytes that pairs of hexadecimal digits spell, after those already read. -/
def ofHexDigits? (read : Array UInt8) : List Char → Option Bytes
  | [] => some read.toList
  | [_] => none
  | a :: b :: rest =>
    match digitValue? a, digitValue? b with
    | some hi, some lo => ofHexDigits? (read.push (UInt8.ofNat (hi * 16 + lo))) rest
    | _, _ => none

/-- The bytes a hexadecimal text spells; none for an odd length or any other character. -/
def ofHex? (s : String) : Option Bytes := ofHexDigits? #[] s.toList

/-- The two upper-case digits of one byte, as diagnostics print it. -/
def upperHex (x : UInt8) : String :=
  String.ofList [upperDigit (x.toNat / 16), upperDigit (x.toNat % 16)]

end Bytes

end DeskLink
