import DeskLink.Bytes
import DeskLink.Json.Basic

/-!
# Printing JSON

Values are printed without blanks. In a text, quotes, backslashes and control characters are
escaped, the common ones by a letter; every other character stands for itself.
-/

namespace DeskLink.Json

/-- One character inside a text. -/
def escaped (c : Char) : String :=
  match c with
  | '"' => "\\\"" | '\\' => "\\\\" | '\n' => "\\n" | '\r' => "\\r" | '\t' => "\\t"
  | '\x08' => "\\b" | '\x0c' => "\\f"
  | c => if c.toNat < 32 then "\\u00" ++ Bytes.toHex [UInt8.ofNat c.toNat] else c.toString

def quoted (s : String) : String :=
  s.foldl (fun out c ↦ out ++ escaped c) "\"" ++ "\""

mutual

/-- The text of a value, appended to what has been printed. -/
def renderOnto (out : String) : Json → String
  | null => out ++ "null"
  | bool b => out ++ if b then "true" else "false"
  | int n => out ++ toString n
  | real x => out ++ toString x
  | str s => out ++ quoted s
  | arr items => renderItems (out ++ "[") true items ++ "]"
  | obj members => renderMembers (out ++ "\x7b") true members ++ "\x7d"

/-- The items of an array, with commas between them. -/
def renderItems (out : String) (first : Bool) : List Json → String
  | [] => out
  | v :: rest => renderItems (renderOnto (if first then out else out ++ ",") v) false rest

/-- The members of an object, with commas between them. -/
def renderMembers (out : String) (first : Bool) : List (String × Json) → String
  | [] => out
  | (k, v) :: rest =>
    renderMembers (renderOnto ((if first then out else out ++ ",") ++ quoted k ++ ":") v) false rest

end

def render (j : Json) : String := renderOnto "" j

end DeskLink.Json
