import DeskLink.Bytes
import DeskLink.Json.Basic
import DeskLink.Number.Reading

/-!
# Reading JSON

A value is read from the front of a list of characters, and what follows it is left over. The
grammar is the standard one, with these decisions:

- numbers that overflow a double, surrogate escapes without a partner, and control characters in
  texts are refused;
- arrays and objects nest at most `Rules.depth` deep;
- a value that nobody will look at is only checked for its shape: `Rules.unused` lets any depth,
  any number and any escape pass.
-/

namespace DeskLink.Json

/-- What is read, and the characters after it. -/
abbrev Reading (α : Type) := Option (α × List Char)

/-- How strict the reading is. -/
structure Rules where
  /-- How many arrays and objects may still be opened inside each other. -/
  depth : Nat
  /-- Whether the value's shape is all that matters. -/
  shapeOnly : Bool

/-- The rules for a value that is going to be used. -/
def Rules.used : Rules := ⟨127, false⟩

/-- The rules for a value of at most `n` characters that nobody will look at. -/
def Rules.unused (n : Nat) : Rules := ⟨n, true⟩

def isBlank (c : Char) : Bool := c == ' ' || c == '\n' || c == '\t' || c == '\r'

def skipBlanks (cs : List Char) : List Char := cs.dropWhile isBlank

/-! ## Texts -/

/-- The number that four hexadecimal digits spell. -/
def hexFour? (a b c d : Char) : Option Nat := do
  let a ← Bytes.digitValue? a
  let b ← Bytes.digitValue? b
  let c ← Bytes.digitValue? c
  let d ← Bytes.digitValue? d
  some (((a * 16 + b) * 16 + c) * 16 + d)

/-- The character of a one-letter escape. -/
def escape? : Char → Option Char
  | '"' => some '"' | '\\' => some '\\' | '/' => some '/'
  | 'b' => some '\x08' | 'f' => some '\x0c' | 'n' => some '\n' | 'r' => some '\r' | 't' => some '\t'
  | _ => none

/-- The character of a pair of surrogates. -/
def surrogatePair? (high low : Nat) : Option Char :=
  if 0xD800 ≤ high ∧ high < 0xDC00 ∧ 0xDC00 ≤ low ∧ low < 0xE000 then
    some (Char.ofNat (0x10000 + (high - 0xD800) * 0x400 + (low - 0xDC00)))
  else none

/-- Whether a number is half of a surrogate pair. -/
def isSurrogate (n : Nat) : Bool := 0xD800 ≤ n && n < 0xE000

/-- The rest of a text after its opening quote, appended to what has been read of it. -/
def text (rules : Rules) (read : String) (cs : List Char) : Reading String :=
  match cs with
  | [] => none
  | '"' :: rest => some (read, rest)
  | '\\' :: 'u' :: a :: b :: c :: d :: rest =>
    match hexFour? a b c d with
    | none => none
    | some n =>
      if !isSurrogate n || rules.shapeOnly then text rules (read.push (Char.ofNat n)) rest
      else match rest with
        | '\\' :: 'u' :: e :: f :: g :: h :: rest =>
          match (hexFour? e f g h).bind (surrogatePair? n) with
          | some ch => text rules (read.push ch) rest
          | none => none
        | _ => none
  | '\\' :: e :: rest =>
    match escape? e with
    | some ch => text rules (read.push ch) rest
    | none => none
  | ch :: rest => if ch.toNat < 32 || ch == '\\' then none else text rules (read.push ch) rest
termination_by cs.length
decreasing_by all_goals (simp only [List.length_cons]; omega)

/-! ## Numbers -/

/-- The number that decimal digits spell. -/
def decimal (ds : List Char) : Nat := numberOf 10 (ds.map decimalDigit)

/-- The leading digits that together fit 64 bits, as a number, and how many they are. -/
def leading (value taken : Nat) : List Char → Nat × Nat
  | [] => (value, taken)
  | c :: rest =>
    let next := value * 10 + decimalDigit c
    if next < 18446744073709551616 then leading next (taken + 1) rest else (value, taken)

/-- The double written with these integer digits, these decimals and this exponent; none when it
is too large. -/
def real? (negative : Bool) (whole decimals : List Char) (exponent : Int) : Option Float :=
  let (significand, taken) := leading 0 0 (whole ++ decimals)
  let e := (whole.length : Int) - taken + exponent
  let x : Float :=
    if significand = 0 || e < -500 then 0.0
    else if e > 500 then 1.0 / 0.0
    else if e ≥ 0 then significand.toUInt64.toFloat * Float.ofScientific 1 false e.toNat
    else Float.ofScientific significand true (-e).toNat
  if x.isInf then none else some (if negative then -x else x)

/-- The value of a number written without decimals and exponent. -/
def integer? (negative : Bool) (digits : List Char) : Option Json :=
  let n := decimal digits
  if !negative && n < 18446744073709551616 then some (int n)
  else if negative && 0 < n && n ≤ 9223372036854775808 then some (int (-n))
  else (real? negative digits [] 0).map real

/-- The digits at the front, when there is at least one. -/
def digits? (cs : List Char) : Reading (List Char) :=
  match cs.takeWhile Char.isDigit with
  | [] => none
  | ds => some (ds, cs.dropWhile Char.isDigit)

/-- The exponent at the front, when there is one. -/
def exponent? : List Char → Reading (Option Int)
  | e :: rest =>
    if e == 'e' || e == 'E' then
      match rest with
      | '-' :: rest => (digits? rest).map fun (ds, rest) ↦ (some (-(decimal ds : Int)), rest)
      | '+' :: rest => (digits? rest).map fun (ds, rest) ↦ (some (decimal ds : Int), rest)
      | rest => (digits? rest).map fun (ds, rest) ↦ (some (decimal ds : Int), rest)
    else some (none, e :: rest)
  | [] => some (none, [])

/-- The decimals at the front, when there is a point. -/
def decimals? : List Char → Reading (Option (List Char))
  | '.' :: rest => (digits? rest).map fun (ds, rest) ↦ (some ds, rest)
  | cs => some (none, cs)

/-- The value of a number with these parts. -/
def numberOf? (negative : Bool) (whole : List Char) (decimals : Option (List Char))
    (exponent : Option Int) : Option Json :=
  match decimals, exponent with
  | none, none => integer? negative whole
  | decimals, exponent =>
    (real? negative whole (decimals.getD []) (exponent.getD 0)).map real

def number (rules : Rules) (negative : Bool) (cs : List Char) : Reading Json :=
  (digits? cs).bind fun (whole, rest) ↦
    if whole.head? = some '0' ∧ 1 < whole.length then none
    else (decimals? rest).bind fun (decimals, rest) ↦
      (exponent? rest).bind fun (exponent, rest) ↦
        if rules.shapeOnly then some (null, rest)
        else (numberOf? negative whole decimals exponent).map (·, rest)

/-! ## Values -/

/-- What follows a word at the front. -/
def word? (w : List Char) (v : Json) (cs : List Char) : Reading Json :=
  if w.isPrefixOf cs then some (v, cs.drop w.length) else none

/-- A value without parts. -/
def atom (rules : Rules) : List Char → Reading Json
  | '"' :: rest => (text rules "" rest).map fun (s, rest) ↦ (str s, rest)
  | '-' :: rest => number rules true rest
  | cs@('t' :: _) => word? "true".toList (bool true) cs
  | cs@('f' :: _) => word? "false".toList (bool false) cs
  | cs@('n' :: _) => word? "null".toList null cs
  | cs => number rules false cs

/-- The opening quote of a key, its text, and the colon after it. -/
def key (rules : Rules) (cs : List Char) : Reading String :=
  match skipBlanks cs with
  | '"' :: rest =>
    (text rules "" rest).bind fun (k, rest) ↦
      match skipBlanks rest with
      | ':' :: rest => some (k, rest)
      | _ => none
  | _ => none

mutual

/-- The value at the front. The fuel bounds the number of values, keys and separators. -/
def value (fuel : Nat) (rules : Rules) (cs : List Char) : Reading Json :=
  match fuel with
  | 0 => none
  | fuel + 1 =>
    match skipBlanks cs with
    | '[' :: rest =>
      if rules.depth = 0 then none
      else match skipBlanks rest with
        | ']' :: rest => some (arr [], rest)
        | rest => items fuel { rules with depth := rules.depth - 1 } #[] rest
    | '\x7b' :: rest =>
      if rules.depth = 0 then none
      else match skipBlanks rest with
        | '\x7d' :: rest => some (obj [], rest)
        | rest => members fuel { rules with depth := rules.depth - 1 } [] rest
    | cs => atom rules cs

/-- The remaining items of an array, after those read. -/
def items (fuel : Nat) (rules : Rules) (read : Array Json) (cs : List Char) : Reading Json :=
  match fuel with
  | 0 => none
  | fuel + 1 =>
    match value fuel rules cs with
    | none => none
    | some (v, rest) =>
      match skipBlanks rest with
      | ',' :: rest => items fuel rules (read.push v) rest
      | ']' :: rest => some (arr (read.push v).toList, rest)
      | _ => none

/-- The remaining members of an object, after those read. -/
def members (fuel : Nat) (rules : Rules) (read : List (String × Json)) (cs : List Char) :
    Reading Json :=
  match fuel with
  | 0 => none
  | fuel + 1 =>
    match key rules cs with
    | none => none
    | some (k, rest) =>
      match value fuel rules rest with
      | none => none
      | some (v, rest) =>
        match skipBlanks rest with
        | ',' :: rest => members fuel rules (setMember read k v) rest
        | '\x7d' :: rest => some (obj (setMember read k v), rest)
        | _ => none

end

/-- The value at the front of at most `n` characters. -/
def read (n : Nat) (rules : Rules) (cs : List Char) : Reading Json := value (2 * n + 2) rules cs

def parse? (s : String) : Option Json :=
  let cs := s.toList
  match read cs.length .used cs with
  | some (v, rest) => if (skipBlanks rest).isEmpty then some v else none
  | none => none

end DeskLink.Json
