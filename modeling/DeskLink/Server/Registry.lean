import DeskLink.Failure
import DeskLink.Session.Record

/-!
# The registry of sessions

The server keeps at most so many sessions, counting those whose place is only reserved. A
connection first reserves a place; the reservation is either committed, which makes it a session,
or released. Names are drawn at random, and a name that is in use is drawn again.

Of several sessions the newest is the one established last, and the registry's round trip is that
of the session that was heard of last among those with a measurement.
-/

namespace DeskLink.Server

/-- A registered session and the key of its outlet, if it can be reached. -/
structure Entry where
  record : Record
  control : Option Nat
  deriving DecidableEq

/-- What is known about a session that is to be registered. -/
structure Newcomer where
  peer : Identity
  version : Version
  control : Option Nat
  deriving DecidableEq

/-- The sessions and the reserved places. -/
structure Registry where
  entries : List Entry
  reserved : Nat
  maxClients : Nat
  deriving DecidableEq

namespace Registry

def new (maxClients : Nat) : Registry := ⟨[], 0, maxClients⟩

/-- Places that are taken. -/
def occupied (r : Registry) : Nat := r.entries.length + r.reserved

def active (r : Registry) : Nat := r.entries.length

def find? (r : Registry) (id : SessionId) : Option Entry :=
  r.entries.find? (·.record.session == id)

def lookup (r : Registry) (id : SessionId) : Option Record := (r.find? id).map Entry.record

/-- The key of a session's outlet. -/
def control (r : Registry) (id : SessionId) : Option Nat := (r.find? id).bind Entry.control

/-! ## Places -/

def reserve (r : Registry) : Except Failure Registry :=
  if r.maxClients ≤ r.occupied then .error .capacityExceeded
  else .ok { r with reserved := r.reserved + 1 }

def release (r : Registry) : Registry := { r with reserved := r.reserved - 1 }

/-- Registers a session under the first of these names that is not in use. -/
def insert? (r : Registry) (ids : List SessionId) (n : Newcomer) (now : Instant) :
    Option (SessionId × Registry) :=
  (ids.find? fun id ↦ (r.find? id).isNone).map fun id ↦
    (id, { r with entries := r.entries ++ [⟨.start id n.peer n.version now, n.control⟩] })

/-- Makes a reserved place a session. -/
def commit? (r : Registry) (ids : List SessionId) (n : Newcomer) (now : Instant) :
    Option (SessionId × Registry) :=
  r.release.insert? ids n now

/-- Registers a session without a reservation, when a place is free. -/
def create? (r : Registry) (ids : List SessionId) (n : Newcomer) (now : Instant) :
    Except Failure (SessionId × Registry) :=
  if r.maxClients ≤ r.occupied then .error .capacityExceeded
  else match r.insert? ids n now with
    | some s => .ok s
    | none => .error .capacityExceeded

/-- Removes a session; gives its record. -/
def remove (r : Registry) (id : SessionId) : Option Record × Registry :=
  (r.lookup id, { r with entries := r.entries.filter (·.record.session != id) })

/-! ## Records -/

/-- Folds a snapshot into the record of its session, when there is one. -/
def update (r : Registry) (s : Snapshot) : Registry :=
  { r with entries := r.entries.map fun e ↦
      if e.record.session = s.session then { e with record := e.record.apply s } else e }

/-- The records, oldest session first. -/
def sessions (r : Registry) : List Record :=
  (r.entries.map Entry.record).mergeSort fun a b ↦ decide (a.establishedAt ≤ b.establishedAt)

/-- The record with the greatest key, the last of several. -/
def latestBy (key : Record → Nat) (records : List Record) : Option Record :=
  records.foldl (fun best r ↦
    match best with
    | none => some r
    | some b => if key b ≤ key r then some r else some b) none

/-- The session established last. -/
def newest (r : Registry) : Option SessionId :=
  (latestBy Record.establishedAt (r.entries.map Entry.record)).map Record.session

/-- The round trip of the session heard of last, among those with a measurement. -/
def latestRtt (r : Registry) : Option Duration :=
  (latestBy Record.lastHeartbeatAt
    ((r.entries.map Entry.record).filter (·.lastRtt.isSome))).bind Record.lastRtt

end Registry

end DeskLink.Server
