import DeskLink.Client.Console
import DeskLink.Rehearsal.WorldJson
import DeskLink.Server.Console

/-!
# Rehearsals of consoles

The server's console is fed a whole input while its clients are connected. It answers all of it
before anybody else moves; then what it has left as captured input is forwarded, if anybody takes
it, and everybody moves.

The client's console runs on a machine that is on its own: it finds services in a table, and
reaches none of them.

In an input, `<s1>`, `<s2>`, .. stand for the sessions there are.
-/

namespace DeskLink.Rehearsal

open Client (Guest Attempt)
open Console (Complaint Reply)

/-! ## Inputs -/

/-- The text with sessions in the place of their labels. -/
def putSessions (ids : List SessionId) (s : String) : String :=
  (List.zip (List.range ids.length) ids).foldl (fun s (i, id) ↦
    let n := i + 1
    s.replace s!"<s{n}>" id.toText) s

/-- The whole input that an object gives, as bytes or as lines. -/
def inputOfJson (ids : List SessionId) (j : Json) : Bytes :=
  match (j.get? "bytes").bind Json.hex? with
  | some b => b
  | none =>
    let lines := (((j.get? "lines").bind Json.arr?).getD []).filterMap Json.str?
    Utf8.encode ("\n".intercalate (lines.map (putSessions ids)))

def endToJson ( whole : Bool) : Json :=
  if whole then .str "ok" else .obj [("error", .str "InvalidData")]

/-- The result of checking a table of commands. -/
def tableToJson (names : List Json) : Json :=
  match Console.checkTable [] (names.filterMap Json.str?) with
  | .ok _ => .obj [("table", .str "ok")]
  | .error why => .error "InvalidTable" why.message

/-! ## The server's console -/

/-- Connects every client once; gives the sessions in order. -/
def connectAll (w : World) : List SessionId × World :=
  let (out, w) := (List.range w.members.length).foldl (fun (out, w) i ↦
    let (r, w) := World.connect w i
    match r with
    | some (.ok id) => (id :: out, w)
    | _ => (out, w)) (([] : List SessionId), w)
  (out.reverse, w)

/-- What happens to captured input. -/
inductive Capture where
  /-- It stays where it is left. -/
  | kept
  /-- Nobody takes it. -/
  | closed
  /-- It is sent to the focused session. -/
  | forwarded
  deriving DecidableEq

def Capture.ofJson (j : Json) : Capture :=
  match j.strAt? "capture" with
  | some "closed" => .closed
  | some "forward" => .forwarded
  | _ => .kept

def serverConsole (w : World) (j : Json) : Json :=
  let (ids, w) := connectAll w
  let w := w.settle
  let (lines, whole) := Console.linesOf (inputOfJson ids j)
  let capture := Capture.ofJson j
  let desk : Server.Console.Desk := ⟨w.host, w.now, capture != .closed, []⟩
  let (replies, desk) := desk.answerAll (Console.requests lines)
  let pump := if capture = .forwarded then some (Server.Pump.start desk.captured) else none
  let w := World.settle { w with host := desk.host, pump }
  let captured := if capture = .forwarded then [] else desk.captured
  .obj [("lines", .list Reply.toJson replies), ("captured", .list Event.toJson captured),
    ("end", endToJson whole), ("active", .nat w.host.registry.active),
    ("connected", .list (fun m ↦ .bool m.guest.status.connected) w.members),
    ("injected", .list (fun m ↦ .list Event.toJson m.guest.injected) w.members)]

/-! ## The client's console -/

/-- Goes on with an attempt, so many moves at most, when dialling is answered like this. -/
def attemptWithin (answer : Client.DialReply) : Nat → Guest → Attempt → Guest × Attempt
  | 0, g, a => (g, a)
  | n + 1, g, a =>
    match a.step g 0 answer World.nothing with
    | some (g, a, _) => attemptWithin answer n g a
    | none => (g, a)

/-- How a service that is found by its name answers on a machine on its own. -/
def dialAlone (resolver : Resolver) (address : String) : Client.DialReply :=
  match resolver address with
  | .ok a => .failed a.unreachable.text
  | .error e => .failed e.text

/-- Carries out a command of the client's console. -/
def clientPerform (resolver : Resolver) (g : Guest) : Client.Console.Command → Reply × Guest
  | .status => (.ok (Client.Console.statusToJson g.status), g)
  | .connect address =>
    let (g, a) := attemptWithin (dialAlone resolver address) patience g (.start address)
    ((a.result?.map Client.Console.connectReply).getD (.ok .null), g)
  | .disconnect id =>
    match g.disconnect id with
    | .ok (_, g) => (Client.Console.disconnectReply (.ok ()), g)
    | .error why => (Client.Console.disconnectReply (.error why), g)
  | .input e =>
    match g.target? with
    | none => (Client.Console.inputReply none, g)
    | some (id, key) =>
      match g.hand key id e with
      | (.done outcome, g) => (Client.Console.inputReply (some (.ok outcome)), g)
      | (.refused why, g) => (Client.Console.inputReply (some (.error why)), g)
      | (.wait, g) => (Client.Console.inputReply none, g)

def clientConsole (resolver : Resolver) (g : Guest) (j : Json) : Json :=
  let (lines, whole) := Console.linesOf (inputOfJson [] j)
  let (replies, g) := (Console.requests lines).foldl (fun (out, g) r ↦
    match r.bind Client.Console.Command.ofRequest with
    | .ok c =>
      let (reply, g) := clientPerform resolver g c
      (reply :: out, g)
    | .error why => (.error why :: out, g)) (([] : List Reply), g)
  .obj [("lines", .list Reply.toJson replies.reverse), ("end", endToJson whole),
    ("connected", .bool g.status.connected)]

/-! ## Whole rehearsals -/

/-- The server's console that an object describes. -/
def serverConsole? (entropy : Server.Entropy) (j : Json) : Option Json :=
  match (j.get? "table").bind Json.arr? with
  | some names => some (tableToJson names)
  | none => (World.ofJson? entropy j).map fun r ↦ match r with
    | .ok w => serverConsole w j
    | .error why => .error "InvalidConfig" why.message

def serviceOfJson? : Json → Option (String × SocketAddress)
  | .arr [.str name, .str a] => (SocketAddress.parse? a).map (name, ·)
  | _ => none

def servicesOfJson? (j : Json) : Option (List (String × SocketAddress)) :=
  (j.arr?).bind (·.mapM serviceOfJson?)

/-- The address of a server that runs on the same machine. -/
def neighbour : SocketAddress := ⟨.v4 0x7f000001, standardNumber, 0⟩

/-- The client's console that an object describes. -/
def clientConsole? (j : Json) : Option Json :=
  match (j.get? "table").bind Json.arr? with
  | some names => some (tableToJson names)
  | none => do
    let entries ← servicesOfJson? ((j.get? "entries").getD (.arr []))
    let desk := if (j.get? "server").isSome then [("desk", neighbour)] else []
    match ← World.guestOfJson? 1 j with
    | .ok (g, _) => some (clientConsole (.fixed (entries ++ desk)) g j)
    | .error why => some (.error "InvalidConfig" why.message)

end DeskLink.Rehearsal
