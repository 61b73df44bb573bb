import DeskLink.Json.Basic
import DeskLink.Input.Event

/-!
# Input events as JSON

A console names an event by a tag, `Keyboard` or `Mouse`, as the only key of an object, with the
fields under it: as an object, in which unknown members are ignored and the button may be left
out, or as an array of all the fields in order. Numbers must be integers of the field's width.
-/

namespace DeskLink

/-- The value of a tag with nothing under it: the tag as a text, or as the only key of an object
that holds null. -/
def Json.tag? : Json → Option String
  | .str s => some s
  | .obj [(k, .null)] => some k
  | _ => none

namespace Event

/-- The fields of a record that is given as an object or as an array in order; `optional` names
the fields that an object may leave out. -/
def fields? (names optional : List String) : Json → Option (List Json)
  | .obj members => names.mapM fun n ↦
      match (members.find? (·.1 == n)).map (·.2) with
      | some v => some v
      | none => if optional.contains n then some .null else none
  | .arr items => if items.length = names.length then some items else none
  | _ => none

def button? : Json → Option (Option MouseButton)
  | .null => some none
  | j => (j.tag?.bind fun s ↦ MouseButton.all.find? (·.name == s)).map some

def time? (j : Json) : Option UInt64 := (j.natBelow? 18446744073709551616).map UInt64.ofNat

def keyOfJson? (j : Json) : Option Event := do
  match ← fields? ["key_code", "pressed", "modifiers", "timestamp_us"] [] j with
  | [code, pressed, modifiers, time] =>
    let code ← code.natBelow? 65536
    let pressed ← pressed.bool?
    let modifiers ← modifiers.natBelow? 256
    let time ← time? time
    some (.keyboard ⟨UInt16.ofNat code, pressed, ⟨UInt8.ofNat modifiers⟩, time⟩)
  | _ => none

def mouseOfJson? (j : Json) : Option Event := do
  let names := ["x", "y", "button", "pressed", "wheel_delta", "timestamp_us"]
  match ← fields? names ["button"] j with
  | [x, y, button, pressed, wheel, time] =>
    let x ← x.intIn? (-2147483648) 2147483647
    let y ← y.intIn? (-2147483648) 2147483647
    let button ← button? button
    let pressed ← pressed.bool?
    let wheel ← wheel.intIn? (-32768) 32767
    let time ← time? time
    some (.mouse ⟨Int32.ofInt x, Int32.ofInt y, button, pressed, Int16.ofInt wheel, time⟩)
  | _ => none

def ofJson? : Json → Option Event
  | .obj [("Keyboard", fields)] => keyOfJson? fields
  | .obj [("Mouse", fields)] => mouseOfJson? fields
  | _ => none

def toJson : Event → Json
  | .keyboard k => .obj [("Keyboard", .obj [
      ("key_code", .nat k.keyCode.toNat), ("pressed", .bool k.pressed),
      ("modifiers", .nat k.modifiers.bits.toNat), ("timestamp_us", .nat k.timestamp.toNat)])]
  | .mouse m => .obj [("Mouse", .obj [
      ("x", .int m.x.toInt), ("y", .int m.y.toInt),
      ("button", Json.ofOption (.str ·.name) m.button), ("pressed", .bool m.pressed),
      ("wheel_delta", .int m.wheel.toInt), ("timestamp_us", .nat m.timestamp.toNat)])]

end Event

end DeskLink
