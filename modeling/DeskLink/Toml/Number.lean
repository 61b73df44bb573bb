import DeskLink.Bytes
import DeskLink.Number.Reading
import DeskLink.Text.Reader
import DeskLink.Toml.Basic

/-!
# Numbers and times of TOML

A whole number has a sign of its own choice and no zeros in front, or is written in base 16, 8 or
2 behind `0x`, `0o` or `0b`; it fits 64 bits with a sign. A real number has decimals, an exponent,
or both; or it is infinite or none at all. Between any two digits there may be an underscore.

A date is a year, a month and a day that exist; a time of day goes to the second or beyond. A date
may have a time, and then how far its clock is off.
-/

namespace DeskLink.Toml

/-! ## Digits -/

/-- The remaining digits of a number, after those read; an underscore stands between two. -/
def moreDigits (isDigit : Char → Bool) (read : List Char) : List Char → List Char × List Char
  | '_' :: c :: rest =>
    if isDigit c then moreDigits isDigit (c :: read) rest else (read.reverse, '_' :: c :: rest)
  | c :: rest =>
    if isDigit c then moreDigits isDigit (c :: read) rest else (read.reverse, c :: rest)
  | [] => (read.reverse, [])

/-- Reads digits, without their underscores. -/
def digits (isDigit : Char → Bool) : Reader (List Char)
  | c :: rest => if isDigit c then some (moreDigits isDigit [c] rest) else none
  | [] => none

/-- Reads digits without zeros in front. -/
def wholePart : Reader (List Char)
  | '0' :: rest => some (['0'], rest)
  | cs => digits Char.isDigit cs

/-- The number that digits spell in a base. -/
def valueOf (base : Nat) (ds : List Char) : Nat :=
  numberOf base (ds.map fun c ↦ (Bytes.digitValue? c).getD 0)

/-! ## Numbers -/

/-- A whole number that fits. -/
def fitting? (n : Int) : Option Value :=
  if -9223372036854775808 ≤ n ∧ n < 9223372036854775808 then some (.int n) else none

/-- Reads the digits of a whole number in this base. -/
def based (base : Nat) : Reader Value
  | cs => (digits (fun c ↦ (Bytes.digitValue? c).any (· < base)) cs).bind fun (ds, rest) ↦
      (fitting? (valueOf base ds)).map (·, rest)

def integer : Reader Value
  | '0' :: 'x' :: rest => based 16 rest
  | '0' :: 'o' :: rest => based 8 rest
  | '0' :: 'b' :: rest => based 2 rest
  | cs =>
    let (negative, cs) := signed cs
    (wholePart cs).bind fun (ds, rest) ↦
      let n : Int := valueOf 10 ds
      (fitting? (if negative then -n else n)).map (·, rest)

def exponent : Reader Int
  | c :: cs =>
    if c == 'e' || c == 'E' then
      let (negative, cs) := signed cs
      (digits Char.isDigit cs).map fun (ds, rest) ↦
        let n : Int := exponentOf (ds.map decimalDigit)
        (if negative then -n else n, rest)
    else none
  | [] => none

def decimals : Reader (List Char)
  | '.' :: cs => digits Char.isDigit cs
  | _ => none

/-- The real number of these parts; one that is too large is refused, but not one that is too
small. -/
def realOf? (negative : Bool) (whole fraction : List Char) (e : Int) : Option Value :=
  let x := Double.ofFloat (Float.ofDecimal (valueOf 10 (whole ++ fraction)) (e - fraction.length))
  if negative then some (.real x.negate)
  else if x = .infinity then none
  else some (.real x)

/-- Reads a real number that is written in digits. -/
def decimal : Reader Value
  | cs =>
    let (negative, cs) := signed cs
    (wholePart cs).bind fun (whole, cs) ↦
      match decimals cs with
      | some (fraction, cs) =>
        let (e, cs) := (exponent cs).getD (0, cs)
        (realOf? negative whole fraction e).map (·, cs)
      | none =>
        (exponent cs).bind fun (e, cs) ↦ (realOf? negative whole [] e).map (·, cs)

/-- Reads the name of infinity or of no number. -/
def special : Reader Value
  | cs =>
    let (negative, cs) := signed cs
    let put (x : Double) : Value := .real (if negative then x.negate else x)
    match cs with
    | 'i' :: 'n' :: 'f' :: rest => some (put .infinity, rest)
    | 'n' :: 'a' :: 'n' :: rest => some (put .nan, rest)
    | _ => none

/-! ## Times -/

/-- Reads a number of so many digits between two bounds. -/
def fixed (count low high : Nat) : Reader Nat
  | cs =>
    let ds := cs.take count
    let n := valueOf 10 ds
    if ds.length = count && ds.all Char.isDigit && low ≤ n && n ≤ high then some (n, cs.drop count)
    else none

def daysIn (year month : Nat) : Nat :=
  if month = 2 then if year % 4 = 0 && (year % 100 ≠ 0 || year % 400 = 0) then 29 else 28
  else if [4, 6, 9, 11].contains month then 30
  else 31

def date : Reader Unit
  | cs => do
    let (year, cs) ← fixed 4 0 9999 cs
    let (_, cs) ← Reader.char '-' cs
    let (month, cs) ← fixed 2 1 12 cs
    let (_, cs) ← Reader.char '-' cs
    let (_, cs) ← fixed 2 1 (daysIn year month) cs
    some ((), cs)

/-- Reads the part of a second, if there is one. -/
def secondPart : Reader Unit
  | '.' :: cs =>
    match cs.takeWhile Char.isDigit with
    | [] => some ((), '.' :: cs)
    | _ => some ((), cs.dropWhile Char.isDigit)
  | cs => some ((), cs)

def timeOfDay : Reader Unit
  | cs => do
    let (_, cs) ← fixed 2 0 23 cs
    let (_, cs) ← Reader.char ':' cs
    let (_, cs) ← fixed 2 0 59 cs
    let (_, cs) ← Reader.char ':' cs
    let (_, cs) ← fixed 2 0 60 cs
    secondPart cs

/-- Reads how far a clock is off. -/
def clock : Reader Unit
  | c :: cs =>
    if c == 'Z' || c == 'z' then some ((), cs)
    else if c == '+' || c == '-' then do
      let (_, cs) ← fixed 2 0 23 cs
      let (_, cs) ← Reader.char ':' cs
      let (_, cs) ← fixed 2 0 59 cs
      some ((), cs)
    else none
  | [] => none

/-- Reads the time behind a date, and how far its clock is off, if they are there. -/
def timeAfterDate : List Char → List Char
  | c :: cs =>
    if c == 'T' || c == 't' || c == ' ' then
      match timeOfDay cs with
      | some (_, cs) => ((clock cs).map (·.2)).getD cs
      | none => c :: cs
    else c :: cs
  | [] => []

def time : Reader Value
  | cs =>
    match date cs with
    | some (_, cs) => some (.time, timeAfterDate cs)
    | none => (timeOfDay cs).map fun (_, cs) ↦ (.time, cs)

def numeral : Reader Value :=
  Reader.orElse time (Reader.orElse decimal (Reader.orElse special integer))

end DeskLink.Toml
