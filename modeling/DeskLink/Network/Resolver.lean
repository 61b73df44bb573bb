import DeskLink.Network.Address
import DeskLink.Number.Reading

/-!
# Finding services

A `Resolver` finds the address of a service by its name. `Resolver.fixed` looks it up in a table,
`Resolver.literal` takes the name for an address itself; a number that is left out is the standard
one. The latter also takes the older ways of writing an address of version 4, with fewer than four
parts, in octal or in hexadecimal, and an address of version 6 without its brackets.
-/

namespace DeskLink

/-- Why an operation of the network failed. -/
structure IoError where
  /-- The name of the cause. -/
  kind : String
  text : String
  deriving DecidableEq, Repr

/-- Finds a service by its name. -/
abbrev Resolver := String → Except IoError SocketAddress

/-- The number of a service that names none. -/
def standardNumber : UInt16 := 24800

/-! ## Names of machines -/

/-- A part of an older address: hexadecimal behind `0x`, octal behind `0`, or decimal. -/
def olderPart? (cs : List Char) : Option Nat :=
  let all (base : Nat) (cs : List Char) : Option Nat :=
    match Reader.number base none true 4294967296 cs with
    | some (n, []) => some n
    | _ => none
  match cs with
  | '0' :: 'x' :: rest | '0' :: 'X' :: rest => all 16 rest
  | '0' :: rest => if rest.isEmpty then some 0 else all 8 rest
  | cs => all 10 cs

/-- The address that these parts make: a byte each, and the last one fills what is left. -/
def olderBits? : List Nat → Option Nat
  | [] => none
  | [n] => if n < 4294967296 then some n else none
  | [a, n] => if a < 256 ∧ n < 16777216 then some (a * 16777216 + n) else none
  | [a, b, n] =>
    if a < 256 ∧ b < 256 ∧ n < 65536 then some ((a * 256 + b) * 65536 + n) else none
  | [a, b, c, n] =>
    if a < 256 ∧ b < 256 ∧ c < 256 ∧ n < 256 then some (((a * 256 + b) * 256 + c) * 256 + n)
    else none
  | _ => none

/-- Whether an address of version 6 belongs to one machine on a link. -/
def isOnLink (groups : List UInt16) : Bool := groups.head?.any (· &&& 0xffc0 == 0xfe80)

/-- Whether an address of version 6 is that of a group of machines. -/
def isGroup (groups : List UInt16) : Bool := groups.head?.any (· &&& 0xff00 == 0xff00)

/-- Whether an address of version 6 is that of a group of machines on a link. -/
def isGroupOnLink (groups : List UInt16) : Bool := groups.head?.any (· &&& 0xff0f == 0xff02)

/-- The number that every machine has for its interface with itself, which is named `lo`. -/
def ownInterface : UInt32 := 1

/-- The interface that a text says, by its number or, for an address on a link, by its name. -/
def interface? (groups : List UInt16) (s : String) : Option UInt32 :=
  if s == "lo" && (isOnLink groups || isGroupOnLink groups) then some ownInterface
  else (Reader.all? (Reader.number 10 none true 4294967296) s).map UInt32.ofNat

/-- The address of version 6 that a name is, and the interface that may follow. -/
def groups? (name : String) : Option (Ip × UInt32) :=
  match name.splitOn "%" with
  | [name] => (Reader.all? Reader.v6 name).map (.v6 ·, 0)
  | [name, interface] =>
    (Reader.all? Reader.v6 name).bind fun gs ↦ (interface? gs interface).map (.v6 gs, ·)
  | _ => none

/-- The machine that a name is the address of, and the interface to it. -/
def machine? (name : String) : Option (Ip × UInt32) :=
  let older := (name.splitOn ".").mapM (olderPart? ·.toList)
  match older.bind olderBits? with
  | some bits => some (.v4 (UInt32.ofNat bits), 0)
  | none => groups? name

/-- Whether a text could be the name of a machine: words of letters, digits, hyphens and
underscores, with points between them. -/
def isName (name : String) : Bool :=
  let labels := (if name.endsWith "." then (name.dropEnd 1).toString else name).splitOn "."
  let isPart (c : Char) : Bool := c.isAlphanum || c == '-' || c == '_'
  name.length < 255 && labels.all fun l ↦ !l.isEmpty && l.length < 64 && l.all isPart

/-- Why nothing is known about a machine's name, when nobody can be asked. -/
def nameless (name : String) : IoError :=
  let why := if isName name then "Temporary failure in name resolution"
    else "Name or service not known"
  ⟨"Uncategorized", s!"failed to lookup address information: {why}"⟩

/-! ## Names of services -/

/-- The number of a service, which may have a plus sign. -/
def serviceNumber? (s : String) : Option UInt16 :=
  let digits := match s.toList with
    | '+' :: rest => rest
    | cs => cs
  (digits? digits).bind fun n ↦ if n < 65536 then some (UInt16.ofNat n) else none

/-- What comes before the last colon and after it. -/
def splitService? (s : String) : Option (String × String) :=
  match (s.splitOn ":").reverse with
  | last :: rest@(_ :: _) => some (":".intercalate rest.reverse, last)
  | _ => none

/-- The address of the machine and service that a text names. -/
def lookup (s : String) : Except IoError SocketAddress :=
  match SocketAddress.parse? s with
  | some a => .ok a
  | none =>
    match splitService? s with
    | none => .error ⟨"InvalidInput", "invalid socket address"⟩
    | some (name, number) =>
      match serviceNumber? number, machine? name with
      | none, _ => .error ⟨"InvalidInput", "invalid port value"⟩
      | some service, some (ip, interface) => .ok ⟨ip, service, interface⟩
      | some _, none =>
        if name.contains '\x00' then
          .error ⟨"InvalidInput", "file name contained an unexpected NUL byte"⟩
        else .error (nameless name)

namespace Resolver

/-- Takes the name for an address. -/
def literal : Resolver := fun name ↦
  match SocketAddress.parse? name with
  | some a => .ok a
  | none =>
    if name.contains ':' then lookup name
    else lookup (name ++ ":" ++ toString standardNumber)

/-- Looks the name up in a table; the last of several entries counts. -/
def fixed (table : List (String × SocketAddress)) : Resolver := fun name ↦
  match table.reverse.lookup name with
  | some a => .ok a
  | none => .error ⟨"NotFound", s!"unknown service {name}"⟩

end Resolver

/-! ## A machine on its own

A machine that is connected to no network, not even to itself, can listen, but reach nobody. -/

/-- The address of version 4 that one of version 6 may be the guise of; another address is its
own. -/
def Ip.unmasked : Ip → Ip
  | .v6 [0, 0, 0, 0, 0, 0xffff, high, low] =>
    .v4 (UInt32.ofNat (high.toNat * 65536 + low.toNat))
  | ip => ip

/-- Whether an address stands for all addresses of a machine. -/
def Ip.isAny (ip : Ip) : Bool :=
  match ip.unmasked with
  | .v4 bits => bits == 0
  | .v6 gs => gs.all (· == 0)

/-- Whether two services cannot listen at a time: neither number is left to the machine, the
numbers are the same, and so is the machine's address, unless one of them stands for all. -/
def SocketAddress.clashes (a b : SocketAddress) : Bool :=
  a.service != 0 && a.service == b.service &&
    (a.ip.unmasked == b.ip.unmasked || a.ip.isAny || b.ip.isAny)

namespace IoError

/-- The address is not one that can be used in this way. -/
def invalid : IoError := ⟨"InvalidInput", "Invalid argument (os error 22)"⟩

def noInterface : IoError := ⟨"Uncategorized", "No such device (os error 19)"⟩

/-- The machine does not have the address, or none from which it could be reached. -/
def unassigned : IoError :=
  ⟨"AddrNotAvailable", "Cannot assign requested address (os error 99)"⟩

def inUse : IoError := ⟨"AddrInUse", "Address already in use (os error 98)"⟩

def unreachable : IoError :=
  ⟨"NetworkUnreachable", "Network is unreachable (os error 101)"⟩

end IoError

/-- Why a machine that is connected to nothing cannot listen at an address, if it cannot. It has no
address of version 6, but takes any of version 4 for its own. -/
def SocketAddress.refused? (a : SocketAddress) : Option IoError :=
  match a.ip.unmasked with
  | .v4 _ => none
  | .v6 gs =>
    if a.ip.isAny then none
    else if isGroup gs || (isOnLink gs && a.interface == 0) then some .invalid
    else if isOnLink gs && a.interface != ownInterface then some .noInterface
    else some .unassigned

/-- Listens at an address beside others, where the number may be left to the machine. -/
def listenAlone (others : List SocketAddress) (address : String) : Except IoError SocketAddress :=
  (lookup address).bind fun a ↦
    match a.refused? with
    | some why => .error why
    | none => if others.any a.clashes then .error .inUse else .ok a

/-- Why the service at an address cannot be reached. -/
def SocketAddress.unreachable (a : SocketAddress) : IoError :=
  match a.ip.unmasked with
  | .v4 _ => .unreachable
  | .v6 gs =>
    if isGroup gs then .unreachable
    else if isOnLink gs && a.interface == 0 then .invalid
    else .unassigned

end DeskLink
