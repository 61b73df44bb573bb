import DeskLink.Bytes
import DeskLink.Text.Reader

/-!
# Blanks, comments, texts and keys of TOML

A comment goes from a number sign to the end of its line. A text stands between quotes, in which a
backslash begins an escape, or between apostrophes, in which nothing does; between three of either
it may go over several lines. A key is made of letters, digits, hyphens and underscores, or is a
text on one line; several keys with points between them lead into tables.
-/

namespace DeskLink.Toml

/-! ## Blanks and ends of lines -/

/-- Whether a character separates words on a line. -/
def isSpace (c : Char) : Bool := c == ' ' || c == '\t'

/-- What follows the blanks on this line. -/
def skipSpace (cs : List Char) : List Char := cs.dropWhile isSpace

/-- Whether a character may stand in a comment: everything but controls. -/
def isPrinting (c : Char) : Bool := c == '\t' || (32 ≤ c.toNat && c.toNat ≠ 127)

/-- What follows the end of a line at the front. -/
def newline? : List Char → Option (List Char)
  | '\n' :: rest | '\r' :: '\n' :: rest => some rest
  | _ => none

/-- What follows a comment at the front, if there is one; the end of the line is left. -/
def skipComment : List Char → List Char
  | '#' :: rest => rest.dropWhile isPrinting
  | cs => cs

/-- What follows the rest of a line on which nothing more may stand than a comment. -/
def endLine? (cs : List Char) : Option (List Char) :=
  match skipComment (skipSpace cs) with
  | [] => some []
  | cs => newline? cs

/-- What follows blanks, comments and ends of lines; at most so many of them. -/
def skipLines : Nat → List Char → List Char
  | 0, cs => cs
  | n + 1, cs =>
    let cs := skipSpace cs
    match newline? (skipComment cs) with
    | some rest => skipLines n rest
    | none => cs

/-! ## Texts -/

/-- Whether a character may stand for itself between quotes. -/
def isQuotable (c : Char) : Bool := isPrinting c && c != '"' && c != '\\'

/-- Whether a character may stand between apostrophes. -/
def isLiteral (c : Char) : Bool := isPrinting c && c != '\''

/-- The character with this number in hexadecimal. -/
def charOfHex? (digits : List Char) : Option Char :=
  match digits.mapM Bytes.digitValue? with
  | none => none
  | some ds =>
    let n := ds.foldl (fun n d ↦ n * 16 + d) 0
    if n.isValidChar then some (Char.ofNat n) else none

/-- The character of the escape at the front, behind its backslash. -/
def escape? : Reader Char
  | 'b' :: rest => some ('\x08', rest)
  | 't' :: rest => some ('\t', rest)
  | 'n' :: rest => some ('\n', rest)
  | 'f' :: rest => some ('\x0c', rest)
  | 'r' :: rest => some ('\r', rest)
  | '"' :: rest => some ('"', rest)
  | '\\' :: rest => some ('\\', rest)
  | 'u' :: rest =>
    if rest.length < 4 then none else (charOfHex? (rest.take 4)).map (·, rest.drop 4)
  | 'U' :: rest =>
    if rest.length < 8 then none else (charOfHex? (rest.take 8)).map (·, rest.drop 8)
  | _ => none

/-- The rest of a text on one line after its opening quote, appended to what has been read of it;
at most so many characters. -/
def quoted : Nat → String → Reader String
  | 0, _, _ => none
  | n + 1, read, cs =>
    match cs with
    | '"' :: rest => some (read, rest)
    | '\\' :: rest => (escape? rest).bind fun (c, rest) ↦ quoted n (read.push c) rest
    | c :: rest => if isQuotable c then quoted n (read.push c) rest else none
    | [] => none

/-- The rest of a text on one line after its opening apostrophe. -/
def literal : Reader String
  | cs =>
    match cs.dropWhile isLiteral with
    | '\'' :: rest => some (String.ofList (cs.takeWhile isLiteral), rest)
    | _ => none

/-- The end of a text over several lines, where three of `q` come first: up to two more of them
belong to the text. -/
def closing (q : Char) (read : String) (rest : List Char) : String × List Char :=
  let extra := min 2 (rest.takeWhile (· == q)).length
  (read ++ String.ofList (List.replicate extra q), rest.drop extra)

/-- What follows blanks and ends of lines; at most so many of them. -/
def skipBreaks : Nat → List Char → List Char
  | 0, cs => cs
  | n + 1, cs =>
    let cs := skipSpace cs
    match newline? cs with
    | some rest => skipBreaks n rest
    | none => cs

/-- The rest of a text over several lines after its three opening quotes; at most so many
characters. A backslash at the end of a line hides the blanks and ends of lines behind it. -/
def quotedLines : Nat → String → Reader String
  | 0, _, _ => none
  | n + 1, read, cs =>
    match cs with
    | '"' :: '"' :: '"' :: rest => some (closing '"' read rest)
    | '"' :: rest => quotedLines n (read.push '"') rest
    | '\\' :: rest =>
      match newline? (skipSpace rest) with
      | some rest => quotedLines n read (skipBreaks n rest)
      | none => (escape? rest).bind fun (c, rest) ↦ quotedLines n (read.push c) rest
    | cs =>
      match newline? cs, cs with
      | some rest, _ => quotedLines n (read.push '\n') rest
      | none, c :: rest => if isQuotable c then quotedLines n (read.push c) rest else none
      | none, [] => none

/-- The rest of a text over several lines after its three opening apostrophes; at most so many
characters. -/
def literalLines : Nat → String → Reader String
  | 0, _, _ => none
  | n + 1, read, cs =>
    match cs with
    | '\'' :: '\'' :: '\'' :: rest => some (closing '\'' read rest)
    | '\'' :: rest => literalLines n (read.push '\'') rest
    | cs =>
      match newline? cs, cs with
      | some rest, _ => literalLines n (read.push '\n') rest
      | none, c :: rest => if isLiteral c then literalLines n (read.push c) rest else none
      | none, [] => none

/-- The text without the end of a line right after its opening. -/
def afterOpening (cs : List Char) : List Char := (newline? cs).getD cs

/-- Reads a text of at most `n` characters. -/
def text (n : Nat) : Reader String
  | '"' :: '"' :: '"' :: rest => quotedLines n "" (afterOpening rest)
  | '"' :: rest => quoted n "" rest
  | '\'' :: '\'' :: '\'' :: rest => literalLines n "" (afterOpening rest)
  | '\'' :: rest => literal rest
  | _ => none

/-! ## Keys -/

/-- Whether a character may stand in a key without quotes. -/
def isBare (c : Char) : Bool := c.isAlphanum || c == '-' || c == '_'

/-- Reads one key of at most `n` characters. -/
def key (n : Nat) : Reader String
  | '"' :: rest => quoted n "" rest
  | '\'' :: rest => literal rest
  | cs =>
    match cs.takeWhile isBare with
    | [] => none
    | k => some (String.ofList k, cs.dropWhile isBare)

/-- How many keys may lead into tables at a time, and how deep values may be nested; one less than
this. -/
def nesting : Nat := 80

/-- Reads keys with points between them, and the blanks around them; at most so many, each of at
most `n` characters. -/
def keysWithin (n : Nat) : Nat → Reader (List String)
  | 0, _ => none
  | more + 1, cs =>
    match key n (skipSpace cs) with
    | none => none
    | some (k, rest) =>
      match skipSpace rest with
      | '.' :: rest => (keysWithin n more rest).map fun (ks, rest) ↦ (k :: ks, rest)
      | rest => some ([k], rest)

/-- Reads keys with points between them, each of at most `n` characters. -/
def keys (n : Nat) : Reader (List String) := keysWithin n (nesting - 1)

end DeskLink.Toml
