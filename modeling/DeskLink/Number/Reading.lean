/-!
# Reading numbers

`numberOf` is the number that digits spell, `digits?` reads a run of decimal digits, and
`Float.ofText?` a double: a sign, digits with a point among or beside them, and an exponent, or the
name of infinity or of no number, in any case. The result is the double nearest to the number that
is written, as long as its exponent is not out of all measure.
-/

namespace DeskLink

/-! ## Digits -/

/-- Digits of the squared base, of which each is two of the base, after those read. The lowest
come first. -/
def pairedDigits (base : Nat) (read : List Nat) : List Nat → List Nat
  | low :: high :: rest => pairedDigits base ((low + base * high) :: read) rest
  | [d] => (d :: read).reverse
  | [] => read.reverse

/-- The number with these digits, the lowest first. They are put together in pairs, as often as it
takes and at most `n` times, so that a long number costs few long products. -/
def ofPairedDigits : Nat → Nat → List Nat → Nat
  | n + 1, base, low :: high :: rest =>
    ofPairedDigits n (base * base) (pairedDigits base [] (low :: high :: rest))
  | _, _, ds => ds.headD 0

/-- The number that digits spell in a base, the highest first. -/
def numberOf (base : Nat) (ds : List Nat) : Nat := ofPairedDigits ds.length base ds.reverse

/-- Pairing loses nothing. -/
theorem foldr_pairedDigits (base : Nat) (read ds : List Nat) :
    (pairedDigits base read ds).foldr (fun d n ↦ d + base * base * n) 0 =
      read.reverse.foldr (fun d n ↦ d + base * base * n)
        (ds.foldr (fun d n ↦ d + base * n) 0) := by
  fun_induction pairedDigits base read ds with
  | case1 read low high rest ih =>
    rw [ih]
    simp [Nat.mul_add, Nat.add_assoc, Nat.mul_assoc]
  | case2 read d => simp
  | case3 read => simp

private theorem length_pairedDigits (base : Nat) (read ds : List Nat) :
    (pairedDigits base read ds).length = read.length + (ds.length + 1) / 2 := by
  fun_induction pairedDigits base read ds with
  | case1 read low high rest ih => simp only [ih, List.length_cons]; omega
  | case2 read d => simp
  | case3 read => simp

private theorem ofPairedDigits_eq_foldr (n base : Nat) (ds : List Nat) (h : ds.length ≤ n) :
    ofPairedDigits n base ds = ds.foldr (fun d n ↦ d + base * n) 0 := by
  fun_induction ofPairedDigits n base ds with
  | case1 n base low high rest ih =>
    rw [ih (by simp only [length_pairedDigits, List.length_cons, List.length_nil] at h ⊢; omega),
      foldr_pairedDigits]
    rfl
  | case2 n base ds hds =>
    match n, ds with
    | _, [] => rfl
    | _, [d] => simp
    | 0, _ :: _ :: _ => simp at h
    | n + 1, low :: high :: rest => exact absurd rfl (hds n low high rest rfl)

theorem numberOf_eq_foldl (base : Nat) (ds : List Nat) :
    numberOf base ds = ds.foldl (fun n d ↦ n * base + d) 0 := by
  rw [numberOf, ofPairedDigits_eq_foldr _ _ _ (by simp), List.foldr_reverse]
  simp only [Nat.add_comm, Nat.mul_comm]

def decimalDigit (c : Char) : Nat := c.toNat - '0'.toNat

/-- The decimal digits that these characters are; there must be one, and nothing else. -/
def decimalDigits? (cs : List Char) : Option (List Nat) :=
  if cs.isEmpty || !cs.all Char.isDigit then none else some (cs.map decimalDigit)

/-- The number that these decimal digits write; there must be one, and nothing else. -/
def digits? (cs : List Char) : Option Nat := (decimalDigits? cs).map (numberOf 10)

/-- The exponent that decimal digits write. Once it is 65536 or more, and out of all measure, no
further digit counts. -/
def exponentOf (ds : List Nat) : Nat :=
  ds.foldl (fun n d ↦ if n < 65536 then 10 * n + d else n) 0

/-! ## Doubles -/

/-- The digits of a whole part and of a fraction; one of the two may be missing. -/
structure Digits where
  whole : List Char
  fraction : List Char
  rest : List Char

/-- The digits at the beginning of a number. -/
def Digits.read (cs : List Char) : Digits :=
  let whole := cs.takeWhile Char.isDigit
  match cs.dropWhile Char.isDigit with
  | '.' :: rest => ⟨whole, rest.takeWhile Char.isDigit, rest.dropWhile Char.isDigit⟩
  | rest => ⟨whole, [], rest⟩

/-- A sign, and what follows it. -/
def signed (cs : List Char) : Bool × List Char :=
  match cs with
  | '-' :: rest => (true, rest)
  | '+' :: rest => (false, rest)
  | rest => (false, rest)

/-- The exponent after the digits, when what is there is one or nothing. -/
def exponent? (cs : List Char) : Option Int :=
  match cs with
  | [] => some 0
  | c :: rest =>
    if c = 'e' ∨ c = 'E' then
      let (negative, rest) := signed rest
      (decimalDigits? rest).map fun ds ↦
        let n : Int := exponentOf ds
        if negative then -n else n
    else none

/-- The double nearest to `n · 10 ^ e`. It is infinite from `2 ^ 1100` on and zero below
`2 ^ -1100`. Both can be seen from how long `n` is, as `10 ^ 3` is between `2 ^ 9` and `2 ^ 10`. -/
def Float.ofDecimal (n : Nat) (e : Int) : Float :=
  if n = 0 then 0.0
  else if 400 < e then 1.0 / 0.0
  else if 0 ≤ e then OfScientific.ofScientific n false e.toNat
  else if 10 * (-e).toNat + 3300 < 3 * n.log2 then 1.0 / 0.0
  else if n.log2 + 1101 < 3 * (-e).toNat then 0.0
  else OfScientific.ofScientific n true (-e).toNat

def Float.ofText? (s : String) : Option Float :=
  let (negative, cs) := signed s.toList
  let magnitude :=
    match (String.ofList cs).toLower with
    | "inf" | "infinity" => some (1.0 / 0.0)
    | "nan" => some (0.0 / 0.0)
    | _ =>
      let d := Digits.read cs
      match digits? (d.whole ++ d.fraction), exponent? d.rest with
      | some n, some e => some (Float.ofDecimal n (e - d.fraction.length))
      | _, _ => none
  magnitude.map fun x ↦ if negative then -x else x

end DeskLink
