import DeskLink.Bytes

/-!
# UTF-8 text

A byte string is text when it is a sequence of well-formed UTF-8 characters. Three readings:

- `decode` gives the text, or the first `Fault`: where the text stops being well-formed, and
  whether what stands there is wrong or merely cut off by the end;
- `decodeLossy` always gives a text, with one replacement character in place of each maximal part
  that cannot belong to a character;
- `encode` is the way back, and `decode` undoes it.

The scan below decides what a fault is. It looks at one character's worth of bytes at a time: a
lead byte fixes how many continuation bytes follow and in which range the first of them lies, and
a part is as long as it can still be the beginning of a character.
-/

namespace DeskLink.Utf8

/-- Why a byte string is not text. -/
inductive Fault where
  /-- The `length` bytes at `index` belong to no character. -/
  | invalid (length index : Nat)
  /-- The text ends inside the character that begins at `index`. -/
  | incomplete (index : Nat)
  deriving DecidableEq, Repr

def Fault.message : Fault → String
  | .invalid length index => s!"invalid utf-8 sequence of {length} bytes from index {index}"
  | .incomplete index => s!"incomplete utf-8 byte sequence from index {index}"

/-! ## Scanning one character -/

/-- What a lead byte asks for: the number of continuation bytes, and the range of the first. -/
def continuation? (lead : UInt8) : Option (Nat × UInt8 × UInt8) :=
  if lead ≤ 0x7f then some (0, 0x80, 0xbf)
  else if lead < 0xc2 then none
  else if lead ≤ 0xdf then some (1, 0x80, 0xbf)
  else if lead = 0xe0 then some (2, 0xa0, 0xbf)
  else if lead = 0xed then some (2, 0x80, 0x9f)
  else if lead ≤ 0xef then some (2, 0x80, 0xbf)
  else if lead = 0xf0 then some (3, 0x90, 0xbf)
  else if lead ≤ 0xf3 then some (3, 0x80, 0xbf)
  else if lead = 0xf4 then some (3, 0x80, 0x8f)
  else none

/-- How the first character of a text reads. -/
inductive Piece where
  /-- A character made of this many bytes after its lead byte. -/
  | char (more : Nat)
  /-- No character; this many bytes after the first could still have begun one. -/
  | bad (more : Nat)
  /-- The text ended too early. -/
  | cut
  deriving DecidableEq, Repr

/-- Follows `owed` continuation bytes, the first of them between `low` and `high`; `seen` were
there already. -/
def follow (seen owed : Nat) (low high : UInt8) (rest : Bytes) : Piece :=
  match owed, rest with
  | 0, _ => .char seen
  | _ + 1, [] => .cut
  | owed + 1, x :: rest =>
    if low ≤ x && x ≤ high then follow (seen + 1) owed 0x80 0xbf rest else .bad seen

/-- The piece that a text with this lead byte and this rest begins with. -/
def piece (lead : UInt8) (rest : Bytes) : Piece :=
  match continuation? lead with
  | none => .bad 0
  | some (owed, low, high) => follow 0 owed low high rest

/-! ## The first fault -/

/-- The first fault of a text whose first byte has this index. -/
def firstFault? (index : Nat) : Bytes → Option Fault
  | [] => none
  | lead :: rest =>
    match piece lead rest with
    | .char more => firstFault? (index + 1 + more) (rest.drop more)
    | .bad more => some (.invalid (1 + more) index)
    | .cut => some (.incomplete index)
termination_by b => b.length
decreasing_by simp only [List.length_drop, List.length_cons]; omega

/-! ## Reading and writing -/

def encode (s : String) : Bytes := s.toUTF8.toList

/-- The text when the bytes are well-formed. -/
def text? (b : Bytes) : Option String := String.fromUTF8? ⟨b.toArray⟩

def decode (b : Bytes) : Except Fault String :=
  match text? b with
  | some s => .ok s
  | none => .error ((firstFault? 0 b).getD (.incomplete b.length))

/-- What stands in place of the parts that are no characters. -/
def replacement : Char := '\uFFFD'

/-- The characters of a text, with a replacement for each maximal part that is none. -/
def lossyChars (read : Array Char) : Bytes → List Char
  | [] => read.toList
  | lead :: rest =>
    match piece lead rest with
    | .char more =>
      let c := ((text? (lead :: rest.take more)).bind fun s ↦ s.toList.head?).getD replacement
      lossyChars (read.push c) (rest.drop more)
    | .bad more => lossyChars (read.push replacement) (rest.drop more)
    | .cut => (read.push replacement).toList
termination_by b => b.length
decreasing_by all_goals simp only [List.length_drop, List.length_cons]; omega

/-- A text in every case. -/
def decodeLossy (b : Bytes) : String :=
  (text? b).getD (String.ofList (lossyChars #[] b))

end DeskLink.Utf8
