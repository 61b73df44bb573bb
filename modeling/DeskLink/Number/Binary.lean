/-!
# Doubles as bits and as exact numbers

A `Double` is a double as it is stored. A finite one is `m · 2 ^ e`, with a sign, for whole numbers
`m` and `e`. `Dyadic` is that form: from it a multiple of the double can be rounded exactly, in
whole numbers.
-/

namespace DeskLink

/-- A double as it is stored. Unlike its value, it shows the sign of what is no number. -/
structure Double where
  bits : UInt64
  deriving DecidableEq, Repr

namespace Double

def ofFloat (x : Float) : Double := ⟨x.toBits⟩

def value (d : Double) : Float := Float.ofBits d.bits

def negate (d : Double) : Double := ⟨d.bits ^^^ 0x8000000000000000⟩

def infinity : Double := ⟨0x7ff0000000000000⟩

def nan : Double := ⟨0x7ff8000000000000⟩

end Double

/-- The whole number nearest to `n / d`; of two, the even one. -/
def roundHalfEven (n d : Nat) : Nat :=
  let q := n / d
  let twice := 2 * (n % d)
  if d < twice then q + 1
  else if twice = d then q + q % 2
  else q

/-- A number `± mantissa · 2 ^ exponent`. -/
structure Dyadic where
  negative : Bool
  mantissa : Nat
  exponent : Int
  deriving DecidableEq, Repr

namespace Dyadic

/-- The number that the bits of a double stand for; none for those of no finite number. -/
def ofBits? (bits : UInt64) : Option Dyadic :=
  let negative := bits >>> 63 = 1
  let field := (bits >>> 52 &&& 0x7FF).toNat
  let fraction := (bits &&& 0xFFFFFFFFFFFFF).toNat
  if field = 2047 then none
  else if field = 0 then some ⟨negative, fraction, -1074⟩
  else some ⟨negative, 0x10000000000000 + fraction, (field : Int) - 1075⟩

/-- The multiple `k` of the number's magnitude, as a whole number. -/
def scaled (d : Dyadic) (k : Nat) : Nat :=
  if 0 ≤ d.exponent then (d.mantissa * k) <<< d.exponent.toNat
  else roundHalfEven (d.mantissa * k) (1 <<< (-d.exponent).toNat)

end Dyadic

/-- The multiple `k` of a double that is no less than zero, as a whole number; zero for the
others. -/
def Float.scaled (x : Float) (k : Nat) : Nat :=
  match Dyadic.ofBits? x.toBits with
  | some d => if d.negative then 0 else d.scaled k
  | none => 0

end DeskLink
