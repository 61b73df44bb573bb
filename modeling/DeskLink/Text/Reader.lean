/-!
# Readers of text

A `Reader` reads something at the front of a list of characters, and gives it with the characters
that are left; or it refuses. Readers of larger things are made of those of their parts.
-/

namespace DeskLink

/-- Reads something at the front of a list of characters. -/
abbrev Reader (α : Type) := List Char → Option (α × List Char)

namespace Reader

def char (c : Char) : Reader Unit
  | d :: rest => if d = c then some ((), rest) else none
  | [] => none

def word (w : List Char) : Reader Unit
  | cs => if w.isPrefixOf cs then some ((), cs.drop w.length) else none

/-- What the first reader reads, or else the second. -/
def orElse {α : Type} (r s : Reader α) : Reader α
  | cs => r cs <|> s cs

/-- What is read when nothing is left. -/
def all? {α : Type} (r : Reader α) (s : String) : Option α :=
  match r s.toList with
  | some (a, []) => some a
  | _ => none

end Reader

end DeskLink
