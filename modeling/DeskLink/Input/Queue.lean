import DeskLink.Input.Event

/-!
# The input queue

A bounded queue between producers of input events and the session that sends them.

Pointer moves are lossy: a new move replaces a move at the tail, and when the queue is full the
oldest waiting move gives up its place. Everything else is never dropped: an event that is no move
is refused only by a queue full of events that are no moves. Whatever is sent is sent in the order
in which it was accepted.
-/

namespace DeskLink

/-- How the queue took an event. -/
inductive PushOutcome where
  /-- Appended at the tail. -/
  | queued
  /-- Replaced the move at the tail. -/
  | coalesced
  /-- Appended after the oldest move was removed. -/
  | evictedOlderMove
  /-- A move that met a queue full of other events: discarded. -/
  | droppedMove
  deriving DecidableEq, Repr

def PushOutcome.name : PushOutcome → String
  | queued => "Queued" | coalesced => "Coalesced" | evictedOlderMove => "EvictedOlderMove"
  | droppedMove => "DroppedMove"

/-- Why the queue did not take an event, which is handed back. -/
inductive PushError where
  /-- The queue is full of events that are no moves. -/
  | full (e : Event)
  /-- The session is gone. -/
  | closed (e : Event)
  deriving DecidableEq, Repr

def PushError.message : PushError → String
  | full _ => "input queue is full"
  | closed _ => "input queue is closed"

def PushError.event : PushError → Event
  | full e | closed e => e

/-- What has happened to events so far. -/
structure QueueStats where
  queued : Nat
  coalesced : Nat
  droppedMoves : Nat
  deriving DecidableEq, Repr

namespace QueueStats

/-- Counts one accepted event. -/
def count (s : QueueStats) : PushOutcome → QueueStats
  | .queued => { s with queued := s.queued + 1 }
  | .coalesced => { s with coalesced := s.coalesced + 1 }
  | .evictedOlderMove => { s with queued := s.queued + 1, droppedMoves := s.droppedMoves + 1 }
  | .droppedMove => { s with droppedMoves := s.droppedMoves + 1 }

end QueueStats

/-- The queue. -/
structure Queue where
  capacity : Nat
  events : List Event
  closed : Bool
  stats : QueueStats
  deriving DecidableEq, Repr

namespace Queue

/-- An empty queue, with room for at least one event. -/
def new (capacity : Nat) : Queue := ⟨max capacity 1, [], false, ⟨0, 0, 0⟩⟩

/-- Whether the last of these events is a move. -/
def tailIsMove (events : List Event) : Bool := (events.getLast?.map Event.isMove).getD false

/-- Where an event goes among those that wait, and how; none when there is no place for it. -/
def place? (capacity : Nat) (events : List Event) (e : Event) :
    Option (PushOutcome × List Event) :=
  if e.isMove && tailIsMove events then some (.coalesced, events.dropLast ++ [e])
  else if events.length < capacity then some (.queued, events ++ [e])
  else if events.any Event.isMove then
    some (.evictedOlderMove, events.eraseP Event.isMove ++ [e])
  else if e.isMove then some (.droppedMove, events)
  else none

/-- Takes an event without waiting, or hands it back. -/
def tryPush (q : Queue) (e : Event) : Except PushError (PushOutcome × Queue) :=
  if q.closed then .error (.closed e)
  else match place? q.capacity q.events e with
    | some (outcome, events) => .ok (outcome, { q with events, stats := q.stats.count outcome })
    | none => .error (.full e)

/-- The oldest event and the queue without it. -/
def tryPop (q : Queue) : Option (Event × Queue) :=
  match q.events with
  | [] => none
  | e :: rest => some (e, { q with events := rest })

/-- Discards what is waiting and takes nothing more; gives the number discarded. -/
def close (q : Queue) : Nat × Queue := (q.events.length, { q with events := [], closed := true })

/-- Everything that is waiting, and the queue without it. -/
def drain (q : Queue) : List Event × Queue := (q.events, { q with events := [] })

end Queue

end DeskLink
