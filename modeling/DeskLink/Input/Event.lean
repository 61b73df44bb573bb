/-!
# Input events

What a keyboard or a pointing device reports. A *pointer move* is a report of the pointer's
position with no button edge and no wheel step; only pointer moves may be merged or dropped when a
queue is under pressure, since a later position makes an earlier one pointless, while a lost key
release or click never heals.
-/

namespace DeskLink

/-- Modifier keys held during a keyboard event, one bit each. -/
structure Modifiers where
  bits : UInt8
  deriving DecidableEq, Repr

namespace Modifiers

/-- Whether the bit at this position is set. -/
def bit (m : Modifiers) (n : UInt8) : Bool := (m.bits >>> n) &&& 1 == 1

def ctrl (m : Modifiers) : Bool := m.bit 0
def shift (m : Modifiers) : Bool := m.bit 1
def alt (m : Modifiers) : Bool := m.bit 2
/-- The system key (command, super) is held. -/
def metaKey (m : Modifiers) : Bool := m.bit 3

end Modifiers

/-- A button of the pointing device. -/
inductive MouseButton where
  | left | right | middle | back | forward
  deriving DecidableEq, Repr

namespace MouseButton

def all : List MouseButton := [left, right, middle, back, forward]

/-- The button's wire code; zero is kept for "no button". -/
def code : MouseButton → UInt8
  | left => 1 | right => 2 | middle => 3 | back => 4 | forward => 5

def ofCode? (b : UInt8) : Option MouseButton := all.find? (·.code == b)

def name : MouseButton → String
  | left => "Left" | right => "Right" | middle => "Middle" | back => "Back" | forward => "Forward"

@[simp] theorem ofCode?_code (b : MouseButton) : ofCode? b.code = some b := by
  cases b <;> rfl

end MouseButton

/-- A key went down or up. -/
structure KeyEvent where
  keyCode : UInt16
  pressed : Bool
  modifiers : Modifiers
  /-- Capture time in microseconds; it informs, and nothing depends on it. -/
  timestamp : UInt64
  deriving DecidableEq, Repr

/-- The pointer is at a position, perhaps with a button edge or a wheel step. -/
structure MouseEvent where
  x : Int32
  y : Int32
  /-- The button that changed, if one did. -/
  button : Option MouseButton
  pressed : Bool
  /-- Wheel movement in hundred-and-twentieths of a notch. -/
  wheel : Int16
  timestamp : UInt64
  deriving DecidableEq, Repr

/-- One input event. -/
inductive Event where
  | keyboard (k : KeyEvent)
  | mouse (m : MouseEvent)
  deriving DecidableEq, Repr

namespace Event

/-- A plain pointer move to `(x, y)`. -/
def move (x y : Int32) (timestamp : UInt64) : Event := .mouse ⟨x, y, none, false, 0, timestamp⟩

/-- A button edge at `(x, y)`. -/
def button (x y : Int32) (b : MouseButton) (pressed : Bool) (timestamp : UInt64) : Event :=
  .mouse ⟨x, y, some b, pressed, 0, timestamp⟩

def key (keyCode : UInt16) (pressed : Bool) (modifiers : Modifiers) (timestamp : UInt64) : Event :=
  .keyboard ⟨keyCode, pressed, modifiers, timestamp⟩

/-- Whether the event only reports a position. -/
def isMove : Event → Bool
  | .keyboard _ => false
  | .mouse m => m.button.isNone && m.wheel == 0

/-- Capture time in microseconds. -/
def timestamp : Event → UInt64
  | .keyboard k => k.timestamp
  | .mouse m => m.timestamp

/-- Whether the event comes from the keyboard. -/
def isKey : Event → Bool
  | .keyboard _ => true
  | .mouse _ => false

end Event

end DeskLink
