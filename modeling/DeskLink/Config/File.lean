import DeskLink.Bytes
import DeskLink.Text.Utf8
import DeskLink.Toml.Document

/-!
# Configuration files

A node's settings come from a file in TOML. Whatever the file leaves out, up to the file itself,
keeps its standard value, and what it says beyond them is passed over.

Where the file is looked for depends on two variables of the environment: in a directory of its
own below `XDG_CONFIG_HOME` or, when that is not set, below `HOME/.config`.
-/

namespace DeskLink.Config

/-! ## Loading -/

/-- What becomes of reading a file. -/
inductive FileReply where
  | missing
  | unreadable
  | content (b : Bytes)

/-- Why settings cannot be loaded. -/
inductive LoadError where
  /-- The file cannot be read as a text. -/
  | io
  /-- The text describes no settings. -/
  | parse
  deriving DecidableEq, Repr

/-- Loads settings: the standard ones if there is no file. -/
def load {α : Type} (standard : α) (ofToml? : Toml.Value → Option α) :
    FileReply → Except LoadError α
  | .missing => .ok standard
  | .unreadable => .error .io
  | .content b =>
    match Utf8.text? b with
    | none => .error .io
    | some s =>
      match (Toml.parse? s).bind ofToml? with
      | some settings => .ok settings
      | none => .error .parse

/-! ## Fields -/

/-- What a field says, or the standard value when it is missing; none when it says something of
another kind. -/
def fieldOr? {α : Type} (standard : α) (f : Toml.Value → Option α) : Option Toml.Value → Option α
  | none => some standard
  | some v => f v

/-- The number of a field, if it is not too large. -/
def natOr? (bound standard : Nat) (v : Option Toml.Value) : Option Nat :=
  fieldOr? standard (·.natBelow? bound) v

def textOr? (standard : String) (v : Option Toml.Value) : Option String :=
  fieldOr? standard Toml.Value.str? v

/-- The bound of numbers in 64 bits. -/
def wide : Nat := 18446744073709551616

/-- The bound of numbers in 32 bits. -/
def narrow : Nat := 4294967296

/-! ## Paths -/

/-- The path of something in a directory. -/
def join (directory name : String) : String :=
  if directory.isEmpty || directory.endsWith "/" then directory ++ name
  else directory ++ "/" ++ name

/-- The directory of configuration files, for these variables of the environment. -/
def directory? (xdgConfigHome home : Option String) : Option String :=
  (xdgConfigHome <|> home.map (join · ".config")).map (join · "kvmoverip")

def path? (xdgConfigHome home : Option String) (name : String) : Option String :=
  (directory? xdgConfigHome home).map (join · name)

/-- What is said when there is no such path. -/
def noDirectory : String := "could not determine platform config directory"

end DeskLink.Config
