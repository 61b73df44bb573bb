import DeskLink.Toml.Number
import DeskLink.Toml.Text
import DeskLink.Toml.Tree

/-!
# Reading TOML

A document is a sequence of lines: blanks, headers and keys with values. A header says to which
table the keys after it belong. A value may go over several lines only in an array, or as a text
between three quotes.

    [protocol]
    heartbeat_interval_ms = 30_000    # milliseconds
-/

namespace DeskLink.Toml

/-! ## Values -/

def truth : Reader Value
  | cs =>
    match Reader.word "true".toList cs with
    | some (_, rest) => some (.bool true, rest)
    | none => (Reader.word "false".toList cs).map fun (_, rest) ↦ (.bool false, rest)

/-- Reads a value that has no parts, of at most `n` characters. -/
def atom (n : Nat) : Reader Value
  | c :: rest =>
    if c == '"' || c == '\'' then (text n (c :: rest)).map fun (s, rest) ↦ (.str s, rest)
    else if c == '+' || c == '-' || c.isDigit then numeral (c :: rest)
    else if c == 't' || c == 'f' then truth (c :: rest)
    else special (c :: rest)
  | [] => none

mutual

/-- Reads a value inside of `depth` others. The fuel bounds the number of values and of keys, and
of the characters in each of them. -/
def value (fuel depth : Nat) (cs : List Char) : Option (Value × List Char) :=
  match fuel with
  | 0 => none
  | fuel + 1 =>
    match cs with
    | '[' :: rest =>
      if nesting ≤ depth + 1 then none else items fuel (depth + 1) [] rest
    | '\x7b' :: rest =>
      if nesting ≤ depth + 1 then none
      else match skipSpace rest with
        | '\x7d' :: rest => some (.table [], rest)
        | rest => pairs fuel (depth + 1) [] rest
    | cs => atom fuel cs

/-- Reads the remaining items of an array, after those read, and its closing bracket. -/
def items (fuel depth : Nat) (read : List Value) (cs : List Char) : Option (Value × List Char) :=
  match fuel with
  | 0 => none
  | fuel + 1 =>
    match skipLines fuel cs with
    | ']' :: rest => some (.arr read.reverse, rest)
    | cs =>
      match value fuel depth cs with
      | none => none
      | some (v, rest) =>
        match skipLines fuel rest with
        | ',' :: rest => items fuel depth (v :: read) rest
        | ']' :: rest => some (.arr (v :: read).reverse, rest)
        | _ => none

/-- Reads the remaining pairs of a table in braces, after those read, and its closing brace. -/
def pairs (fuel depth : Nat) (read : List (List String × Value)) (cs : List Char) :
    Option (Value × List Char) :=
  match fuel with
  | 0 => none
  | fuel + 1 =>
    match keys fuel cs with
    | some (path, '=' :: rest) =>
      match value fuel depth (skipSpace rest) with
      | none => none
      | some (v, rest) =>
        match skipSpace rest with
        | ',' :: rest => pairs fuel depth ((path, v) :: read) rest
        | '\x7d' :: rest =>
          (Members.ofPairs? ((path, v) :: read).reverse).map fun ms ↦
            (.table (membersToValues ms), rest)
        | _ => none
    | _ => none

end

/-! ## Lines -/

/-- What has been read of a document: all tables, and the keys of the current one. -/
structure Draft where
  members : Members
  current : List String

/-- What follows the end of a header. -/
def endHeader? (n : Nat) (cs : List Char) : Option (List Char) :=
  if cs.take n = List.replicate n ']' then endLine? (cs.drop n) else none

/-- Goes to the table of a header: carries out the header with `f` on the table around it. -/
def Draft.goTo? (d : Draft) (f : String → Members → Option Members) (path : List String) :
    Option Draft :=
  match path.getLast? with
  | none => none
  | some k => (d.members.change? (f k) path.dropLast).map fun members ↦ ⟨members, path⟩

/-- Reads a header after its first bracket; of at most `n` characters. -/
def header? (n : Nat) (d : Draft) (cs : List Char) : Option (Draft × List Char) :=
  match cs with
  | '[' :: rest => do
    let (path, rest) ← keys n rest
    let rest ← endHeader? 2 rest
    let d ← d.goTo? Members.append? path
    some (d, rest)
  | cs => do
    let (path, rest) ← keys n cs
    let rest ← endHeader? 1 rest
    let d ← d.goTo? Members.state? path
    some (d, rest)

/-- Reads keys and their value; of at most `n` characters. -/
def assignment? (n : Nat) (d : Draft) (cs : List Char) : Option (Draft × List Char) := do
  let (path, rest) ← keys n cs
  let k ← path.getLast?
  let (_, rest) ← Reader.char '=' rest
  let (v, rest) ← value (2 * n + 2) 0 (skipSpace rest)
  let rest ← endLine? rest
  let members ← d.members.change? (Members.put? k v path.dropLast) d.current
  some (⟨members, d.current⟩, rest)

/-- Reads a line, or several that belong together; of at most `n` characters. -/
def line? (n : Nat) (d : Draft) (cs : List Char) : Option (Draft × List Char) :=
  match cs with
  | '[' :: rest => header? n d rest
  | '#' :: _ | '\n' :: _ | '\r' :: _ => (endLine? cs).map (d, ·)
  | cs => assignment? n d cs

/-- Reads the remaining lines, of at most so many characters. -/
def lines? : Nat → Draft → List Char → Option Draft
  | 0, _, _ => none
  | n + 1, d, cs =>
    match skipSpace cs with
    | [] => some d
    | cs => (line? n d cs).bind fun (d, rest) ↦ lines? n d rest

/-- The text without the mark that says in which order its bytes are. -/
def withoutMark : List Char → List Char
  | '\uFEFF' :: rest => rest
  | cs => cs

def parse? (s : String) : Option Value :=
  let cs := withoutMark s.toList
  (lines? (cs.length + 1) ⟨[], []⟩ cs).map fun d ↦ .table (membersToValues d.members)

end DeskLink.Toml
