import DeskLink.Bytes

/-!
# Universally unique identifiers

Nodes and sessions are named by sixteen bytes. Printed, an identifier is its bytes in lower-case
hexadecimal, hyphenated 8-4-4-4-12. Read, it may be in either case, hyphenated (alone, in braces
or behind the `urn:uuid:` label) or thirty-two digits without a hyphen, which stand alone.
-/

namespace DeskLink

/-- Sixteen bytes naming a node or a session. -/
structure Uuid where
  bytes : Bytes
  length_bytes : bytes.length = 16
  deriving DecidableEq

namespace Uuid

attribute [simp] length_bytes

/-- The identifier with these bytes, when there are sixteen of them. -/
def ofBytes? (b : Bytes) : Option Uuid :=
  if h : b.length = 16 then some ⟨b, h⟩ else none

@[simp] theorem ofBytes?_bytes (u : Uuid) : ofBytes? u.bytes = some u := by
  simp [ofBytes?]

theorem bytes_of_ofBytes? {b : Bytes} {u : Uuid} (h : ofBytes? b = some u) : u.bytes = b := by
  unfold ofBytes? at h
  split at h <;> cases h
  rfl

/-- The hyphenated lower-case form. -/
def toText (u : Uuid) : String :=
  let part (start n : Nat) : String := Bytes.toHex ((u.bytes.drop start).take n)
  "-".intercalate [part 0 4, part 4 2, part 6 2, part 8 2, part 10 6]

instance : ToString Uuid := ⟨toText⟩

/-- Whether the character at each of the four separator positions is a hyphen. -/
def hyphenated (cs : List Char) : Bool :=
  [8, 13, 18, 23].all fun i ↦ cs[i]? == some '-'

/-- The identifier that thirty-six characters in hyphenated form spell. -/
def ofHyphenated? (cs : List Char) : Option Uuid :=
  if cs.length = 36 && hyphenated cs then
    let digits := cs.take 8 ++ (cs.drop 9).take 4 ++ (cs.drop 14).take 4
      ++ (cs.drop 19).take 4 ++ cs.drop 24
    (Bytes.ofHexDigits? #[] digits).bind ofBytes?
  else none

/-- Whether these characters are the label that may stand before a hyphenated identifier, in any
mixture of cases. -/
def isLabel (cs : List Char) : Bool := cs.map Char.toLower = "urn:uuid:".toList

/-- The identifier a text spells, in any of the accepted forms. -/
def parse? (s : String) : Option Uuid :=
  let cs := s.toList
  match cs.length with
  | 32 => (Bytes.ofHexDigits? #[] cs).bind ofBytes?
  | 36 => ofHyphenated? cs
  | 38 =>
    if cs.head? = some '\x7b' && cs.getLast? = some '\x7d' then ofHyphenated? (cs.drop 1).dropLast
    else none
  | 45 => if isLabel (cs.take 9) then ofHyphenated? (cs.drop 9) else none
  | _ => none

end Uuid

/-- The name of one established session. -/
structure SessionId where
  uuid : Uuid
  deriving DecidableEq

namespace SessionId

def bytes (id : SessionId) : Bytes := id.uuid.bytes

/-- The hyphenated lower-case form. -/
def toText (id : SessionId) : String := id.uuid.toText

instance : ToString SessionId := ⟨toText⟩

@[simp] theorem length_bytes (id : SessionId) : id.bytes.length = 16 := id.uuid.length_bytes

end SessionId

end DeskLink
