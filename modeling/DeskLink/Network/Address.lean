import DeskLink.Bytes
import DeskLink.Text.Reader

/-!
# Network addresses

An address is that of a machine, in version 4 or 6 of the internet protocol, and the number of a
service on it. Written, a machine of version 4 is four decimal numbers with points, and one of
version 6 is eight groups of hexadecimal digits with colons, in brackets when a service follows.
Two colons in a row stand for the groups of zeros that are left out, and the last two groups may
be written as four numbers. The number of an interface may follow them behind a percent sign.

    10.0.0.5:24800        [::1]:80        [fe80::1%4]:80
-/

namespace DeskLink

/-- A machine's address. -/
inductive Ip where
  /-- Four bytes as one number. -/
  | v4 (bits : UInt32)
  /-- Eight groups. -/
  | v6 (groups : List UInt16)
  deriving DecidableEq, Repr

/-- The address of a service on a machine. -/
structure SocketAddress where
  ip : Ip
  /-- The number of the service. -/
  service : UInt16
  /-- The number of the interface by which the machine is reached; zero when none is named. -/
  interface : UInt32
  deriving DecidableEq, Repr

namespace Ip

/-! ## Printing -/

/-- The version 4 address in four numbers. -/
def dotted (bits : UInt32) : String :=
  let part (i : Nat) : String := toString ((bits.toNat >>> (8 * i)) % 256)
  ".".intercalate [part 3, part 2, part 1, part 0]

/-- Where the longest run of zero groups begins, the first of several, and how long it is. -/
def longestZeros : Nat → List UInt16 → Nat × Nat
  | _, [] => (0, 0)
  | i, g :: rest =>
    let here := ((g :: rest).takeWhile (· == 0)).length
    let later := longestZeros (i + 1) rest
    if later.2 ≤ here then (i, here) else later

/-- Groups with colons between them. -/
def grouped (gs : List UInt16) : String :=
  ":".intercalate (gs.map fun g ↦ String.ofList (Nat.toDigits 16 g.toNat))

/-- The address in words. Two or more zero groups in a row are left out once, and an address of
version 4 in the guise of one of version 6 keeps its four numbers. -/
def toText : Ip → String
  | v4 bits => dotted bits
  | v6 [0, 0, 0, 0, 0, 0xffff, high, low] =>
    "::ffff:" ++ dotted (UInt32.ofNat (high.toNat * 65536 + low.toNat))
  | v6 gs =>
    let (start, length) := longestZeros 0 gs
    if length < 2 then grouped gs
    else grouped (gs.take start) ++ "::" ++ grouped (gs.drop (start + length))

end Ip

/-! ## Reading -/

namespace Reader

/-- Reads all digits of the base that are there; there must be one. `atMost` limits how many there
may be, and `zeros` says whether a number of several digits may begin with a zero. -/
def number (base : Nat) (atMost : Option Nat) ( zeros : Bool) (bound : Nat) : Reader Nat
  | cs =>
    let isDigit (c : Char) : Bool := (Bytes.digitValue? c).any (· < base)
    let ds := cs.takeWhile isDigit
    let n := ds.foldl (fun n c ↦ n * base + (Bytes.digitValue? c).getD 0) 0
    if ds.isEmpty || atMost.any (· < ds.length) then none
    else if !zeros && ds.head? = some '0' && 1 < ds.length then none
    else if n < bound then some (n, cs.drop ds.length)
    else none

/-- Reads the number of a service behind its colon. -/
def service : Reader UInt16
  | cs => do
    let (_, cs) ← char ':' cs
    let (n, cs) ← number 10 none true 65536 cs
    some (UInt16.ofNat n, cs)

/-- Reads `n` more of the four numbers of an address. -/
def dotted : Nat → Bool → Nat → Reader Nat
  | 0, _, value, cs => some (value, cs)
  | n + 1, first, value, cs => do
    let cs ← if first then some cs else (char '.' cs).map (·.2)
    let (part, cs) ← number 10 (some 3) false 256 cs
    dotted n false (value * 256 + part) cs

def v4 : Reader UInt32
  | cs => (dotted 4 true 0 cs).map fun (n, cs) ↦ (UInt32.ofNat n, cs)

/-- Reads at most so many groups; says whether the last two were written as four numbers. -/
def groups : Nat → Bool → List UInt16 → List Char → List UInt16 × Bool × List Char
  | 0, _, read, cs => (read.reverse, false, cs)
  | n + 1, first, read, cs =>
    match if first then some cs else (char ':' cs).map (·.2) with
    | none => (read.reverse, false, cs)
    | some rest =>
      match if n = 0 then none else v4 rest with
      | some (bits, rest) =>
        let high := UInt16.ofNat (bits.toNat / 65536)
        let low := UInt16.ofNat (bits.toNat % 65536)
        ((low :: high :: read).reverse, true, rest)
      | none =>
        match number 16 (some 4) true 65536 rest with
        | some (g, rest) => groups n false (UInt16.ofNat g :: read) rest
        | none => (read.reverse, false, cs)

def v6 : Reader (List UInt16)
  | cs => do
    match groups 8 true [] cs with
    | (front, embedded, cs) =>
      if front.length = 8 then some (front, cs)
      else if embedded then none
      else
        let (_, cs) ← char ':' cs
        let (_, cs) ← char ':' cs
        match groups (7 - front.length) true [] cs with
        | (back, _, cs) =>
          some (front ++ List.replicate (8 - front.length - back.length) 0 ++ back, cs)

/-- Reads the number of an interface behind its sign; zero if there is none. -/
def interface : Reader UInt32
  | '%' :: cs => (number 10 none true 4294967296 cs).map fun (n, cs) ↦ (UInt32.ofNat n, cs)
  | cs => some (0, cs)

end Reader

namespace SocketAddress

/-- Reads an address of version 4 with its service. -/
def readV4 : Reader SocketAddress
  | cs => do
    let (bits, cs) ← Reader.v4 cs
    let (service, cs) ← Reader.service cs
    some (⟨.v4 bits, service, 0⟩, cs)

/-- Reads an address of version 6 with its service. -/
def readV6 : Reader SocketAddress
  | cs => do
    let (_, cs) ← Reader.char '[' cs
    let (groups, cs) ← Reader.v6 cs
    let (interface, cs) ← Reader.interface cs
    let (_, cs) ← Reader.char ']' cs
    let (service, cs) ← Reader.service cs
    some (⟨.v6 groups, service, interface⟩, cs)

def parse? (s : String) : Option SocketAddress :=
  Reader.all? readV4 s <|> Reader.all? readV6 s

end SocketAddress

end DeskLink
