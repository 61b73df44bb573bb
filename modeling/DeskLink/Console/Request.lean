import DeskLink.Console.Reply
import DeskLink.Json.Reading
import DeskLink.Message.Json
import DeskLink.Text.Blank
import DeskLink.Text.Utf8

/-!
# Requests to a console

A request is one line: an object with the name of a command and its arguments, or an array of the
two. The arguments may be left out. Other members are ignored, whatever they hold, as long as they
have the shape of a value; a member that comes twice is refused.

    → {"command": "disconnect", "args": {"session_id": "6f1c.."}}
    → ["list_sessions"]
-/

namespace DeskLink.Console

/-- A request. -/
structure Request where
  command : String
  args : Json

namespace Request

/-- The rules for values inside the request. -/
def inner : Json.Rules := { Json.Rules.used with depth := Json.Rules.used.depth - 1 }

/-- A text at the front of at most `n` characters. -/
def text? (n : Nat) (cs : List Char) : Json.Reading String :=
  match Json.read n inner cs with
  | some (.str s, rest) => some (s, rest)
  | _ => none

/-- The members read so far. -/
structure Partial where
  command : Option String
  args : Option Json

def Partial.finish? (p : Partial) : Option Request :=
  p.command.map fun c ↦ ⟨c, p.args.getD .null⟩

/-- One member at the front of at most `n` characters, with what was read before. -/
def member? (n : Nat) (p : Partial) (cs : List Char) : Json.Reading Partial :=
  match Json.key inner cs with
  | none => none
  | some ("command", rest) =>
    if p.command.isSome then none
    else (text? n rest).map fun (s, rest) ↦ ({ p with command := some s }, rest)
  | some ("args", rest) =>
    if p.args.isSome then none
    else (Json.read n inner rest).map fun (v, rest) ↦ ({ p with args := some v }, rest)
  | some (_, rest) => (Json.read n (.unused n) rest).map fun (_, rest) ↦ (p, rest)

/-- The members at the front of at most so many characters, and the closing brace. -/
def members? : Nat → Partial → List Char → Json.Reading Partial
  | 0, _, _ => none
  | n + 1, p, cs =>
    match member? n p cs with
    | none => none
    | some (p, rest) =>
      match Json.skipBlanks rest with
      | ',' :: rest => members? n p rest
      | '\x7d' :: rest => some (p, rest)
      | _ => none

/-- The items of a request that is an array of at most `n` characters, and the closing bracket. -/
def items? (n : Nat) (cs : List Char) : Json.Reading Partial :=
  match text? n cs with
  | none => none
  | some (s, rest) =>
    match Json.skipBlanks rest with
    | ']' :: rest => some (⟨some s, none⟩, rest)
    | ',' :: rest =>
      match Json.read n inner rest with
      | none => none
      | some (v, rest) =>
        match Json.skipBlanks rest with
        | ']' :: rest => some (⟨some s, some v⟩, rest)
        | _ => none
    | _ => none

def read (cs : List Char) : Json.Reading Partial :=
  match Json.skipBlanks cs with
  | '[' :: rest => items? rest.length rest
  | '\x7b' :: rest => members? cs.length ⟨none, none⟩ rest
  | _ => none

def parse? (line : String) : Option Request :=
  match read line.toList with
  | some (p, rest) => if (Json.skipBlanks rest).isEmpty then p.finish? else none
  | none => none

end Request

/-! ## Arguments -/

/-- The argument of a command that takes one, by its name or alone in an array. -/
def argument? (name : String) (j : Json) : Option Json :=
  match j with
  | .obj _ => j.get? name
  | .arr [v] => some v
  | _ => none

/-- The argument of a command that takes one text. -/
def textArgument (name : String) (j : Json) : Except Complaint String :=
  match (argument? name j).bind Json.str? with
  | some s => .ok s
  | none => .error (.arguments s!"expected a text for {name}")

/-- The argument of a command that takes one text or none. -/
def optionalArgument (name : String) (j : Json) : Except Complaint (Option String) :=
  match j, argument? name j with
  | _, some (.str s) => .ok (some s)
  | _, some .null | .obj _, none | .arr [], none => .ok none
  | _, _ => .error (.arguments s!"expected a text or nothing for {name}")

def sessionNamed (s : String) : Except Complaint SessionId :=
  match Uuid.parse? s with
  | some u => .ok ⟨u⟩
  | none => .error (.arguments "invalid session_id: not an identifier")

/-- The event that the arguments describe. -/
def eventArgument (j : Json) : Except Complaint Event :=
  match Event.ofJson? j with
  | some e => .ok e
  | none => .error (.arguments "not an event")

/-! ## Lines -/

/-- The lines of an input up to the first that is no text, and whether there is none such. -/
def linesOf (input : Bytes) : List String × Bool :=
  let texts := (input.splitOn 10).map Utf8.text?
  ((texts.takeWhile Option.isSome).filterMap id, texts.all Option.isSome)

/-- The requests of some lines. Lines of blanks are passed over. -/
def requests (lines : List String) : List (Except Complaint Request) :=
  ((lines.map trimBlanks).filter (!·.isEmpty)).map fun line ↦
    match Request.parse? line with
    | some r => .ok r
    | none => .error (.request "not a request")

/-- Checks the names of a console's commands: none is blank, and none comes twice. -/
def checkTable : List String → List String → Except Complaint Unit
  | _, [] => .ok ()
  | before, name :: rest =>
    if (trimBlanks name).isEmpty then .error (.table "empty command name")
    else if before.contains name then
      .error (.table ("duplicate command \x60" ++ name ++ "\x60"))
    else checkTable (name :: before) rest

end DeskLink.Console
