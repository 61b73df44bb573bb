import DeskLink.Session.Outlet
import DeskLink.Proofs.Session.InFlight

/-!
# Two sessions at the ends of a connection

The connection is two pipes of any capacity, one for each direction, which lose nothing and keep the
order. Everything else is left open: who moves next, how much of what is there a read gives and how
much of what there is room for a write takes, how long passing on takes, how much time passes
between two moves, and when producers push events and owners give commands.

The sessions may have begun at different times. One whose owner has not come round to it is a
worker that has not moved; what the other side sends meanwhile waits for it in the pipe, or comes
in with the last bytes of the handshake, which the link keeps.
-/

namespace DeskLink

/-- The answer of a stream that gives at most so many bytes; with none, it is not ready. The end of
the stream is not held back. -/
def ReadReply.atMost (n : Nat) : ReadReply → ReadReply
  | .data (x :: b) => if n = 0 then .notReady else .data ((x :: b).take n)
  | reply => reply

/-- The answer of a stream that takes at most so many bytes; with none, it is not ready. -/
def WriteReply.atMost (n : Nat) : WriteReply → WriteReply
  | .accepts room => if n = 0 then .notReady else .accepts (min room n)
  | reply => reply

theorem Pipe.buffered_of_read {p : Pipe} {n : Nat} {b : Bytes}
    (h : p.readReply.atMost n = .data b) : p.buffered = b ++ p.buffered.drop b.length := by
  have hprefix : b <+: p.buffered := by
    unfold readReply at h
    split at h
    · split at h
      · obtain rfl := ReadReply.data.inj h
        exact List.nil_prefix
      · nomatch h
    · unfold ReadReply.atMost at h
      split at h
      · split at h
        · nomatch h
        · rename_i hdata _
          obtain rfl := ReadReply.data.inj h
          exact (List.take_prefix _ _).trans (ReadReply.data.inj hdata ▸ List.take_prefix _ _)
      · obtain rfl := ReadReply.data.inj h
        exact List.take_prefix _ _
  obtain ⟨rest, hrest⟩ := hprefix
  rw [← hrest, List.drop_left]

private theorem Pipe.readReply_atMost (p : Pipe) {n : Nat} (h : readChunk ≤ n) :
    p.readReply.atMost n = p.readReply := by
  unfold readReply
  split
  · split <;> rfl
  · rename_i b hne
    obtain ⟨x, rest, hcons⟩ := List.exists_cons_of_ne_nil fun hnil ↦ hne hnil
    rw [hcons]
    have hzero : n ≠ 0 := by
      rintro rfl
      exact absurd h (by decide)
    have htake : ((x :: rest).take readChunk).take n = (x :: rest).take readChunk := by
      rw [List.take_take, Nat.min_eq_right h]
    calc ReadReply.atMost n (.data ((x :: rest).take readChunk))
      _ = .data (((x :: rest).take readChunk).take n) := if_neg hzero
      _ = .data ((x :: rest).take readChunk) := by rw [htake]

private theorem Pipe.writeReply_atMost (p : Pipe) {n : Nat} (h : p.capacity ≤ n) :
    p.writeReply.atMost n = p.writeReply := by
  unfold writeReply
  split
  · rfl
  split
  · rfl
  · rename_i hroom
    have hzero : n ≠ 0 := by omega
    rw [WriteReply.atMost, if_neg hzero, Nat.min_eq_left (by omega)]

namespace Session

/-- What chance decides about a move. -/
structure Chance where
  now : Instant
  /-- The most that a read gives. -/
  reads : Nat
  /-- The most that a write takes. -/
  writes : Nat
  flush : FlushReply
  inject : Injector

/-- What one end of a connection and an outlet offer, as far as chance allows. -/
def Chance.offer (c : Chance) (out : Outlet) (e : Endpoint) : Offer :=
  { Session.offer c.now c.inject out e with
    read := e.incoming.readReply.atMost c.reads
    write := e.outgoing.writeReply.atMost c.writes
    flush := c.flush }

/-- One end: a worker, what others reach of it, and what has become of events there. -/
structure Party where
  worker : Worker
  outlet : Outlet
  /-- The events that its queue has accepted. -/
  accepted : List Event
  /-- The events that its worker has handed to the injector. -/
  injected : List Event

/-- The worker with more bytes in its link. -/
def Worker.fed (w : Worker) (b : Bytes) : Worker :=
  { w with link := { w.link with reader := w.link.reader.feed b } }

theorem Worker.continues_fed (w : Worker) (b : Bytes) : w.Continues [] (w.fed b) :=
  continues_of_phase_eq rfl rfl (UInt32.le_refl _)

/-- What can happen at one end. -/
inductive Happening where
  /-- A producer tries to push an event. -/
  | push (e : Event)
  /-- The owner gives a command. -/
  | command (reason : CloseReason)
  /-- There will be no more commands. -/
  | abandon
  /-- The link gets at most so many bytes ahead of the session, as with the end of a handshake. -/
  | fetch (most : Nat)
  | move (c : Chance)

def Party.happens (p : Party) (e : Endpoint) : Happening → Party × Endpoint
  | .push event =>
    match p.outlet.queue.tryPush event with
    | .ok (outcome, queue) =>
      ({ p with
        outlet := { p.outlet with queue }
        accepted := if outcome.accepts then p.accepted ++ [event] else p.accepted }, e)
    | .error _ => (p, e)
  | .command reason =>
    ({ p with outlet := { p.outlet with commands := (p.outlet.commands.post reason).2 } }, e)
  | .abandon =>
    let commands := { p.outlet.commands with abandoned := true }
    ({ p with outlet := { p.outlet with commands } }, e)
  | .fetch most =>
    match e.incoming.readReply.atMost most with
    | .data b => ({ p with worker := p.worker.fed b }, e.consume b.length)
    | _ => (p, e)
  | .move c =>
    match p.worker.step (c.offer p.outlet e) with
    | none => (p, e)
    | some (worker, effect) =>
      ({ p with
        worker
        outlet := effect.applyOutlet p.outlet
        injected := p.injected ++ effect.injected?.toList }, effect.apply e)

/-- A move of a session against the whole connection is one in which chance holds nothing back. -/
theorem happens_of_move {p : Party} {e e' : Endpoint} {c : Chance} {w : Worker} {effect : Effect}
    {out : Outlet} (hreads : readChunk ≤ c.reads) (hwrites : e.outgoing.capacity ≤ c.writes)
    (hflush : c.flush = .finished)
    (h : p.worker.move c.now c.inject p.outlet e = some (w, effect, out, e')) :
    p.happens e (.move c)
      = (⟨w, out, p.accepted, p.injected ++ effect.injected?.toList⟩, e') := by
  have hoffer : c.offer p.outlet e = offer c.now c.inject p.outlet e := by
    rw [Chance.offer, Pipe.readReply_atMost _ hreads, Pipe.writeReply_atMost _ hwrites, hflush]
    rfl
  rw [Worker.move, Option.map_eq_some_iff] at h
  obtain ⟨⟨w₁, effect₁⟩, hstep, heq⟩ := h
  obtain ⟨rfl, rfl, rfl, rfl⟩ : w₁ = w ∧ effect₁ = effect ∧ _ = out ∧ _ = e' := by
    simpa using heq
  simp only [Party.happens, hoffer, hstep]

/-- Both ends and what is between them. One of them is called the sender, but each sends and
receives. -/
structure Pair where
  sender : Party
  receiver : Party
  /-- From the sender to the receiver. -/
  forth : Pipe
  back : Pipe

namespace Pair

/-- Something that happens at one of the ends. -/
inductive Step where
  | atSender (h : Happening)
  | atReceiver (h : Happening)

def step (p : Pair) : Step → Pair
  | .atSender h =>
    let (sender, e) := p.sender.happens ⟨p.back, p.forth⟩ h
    { p with sender, back := e.incoming, forth := e.outgoing }
  | .atReceiver h =>
    let (receiver, e) := p.receiver.happens ⟨p.forth, p.back⟩ h
    { p with receiver, forth := e.incoming, back := e.outgoing }

def run (p : Pair) (steps : List Step) : Pair := steps.foldl step p

end Pair

/-- With what a session begins. -/
structure Terms where
  version : Version
  interval : Duration
  drain : Duration
  link : Link
  now : Instant
  /-- The capacity of its input queue. -/
  room : Nat

def Terms.begin (t : Terms) (id : SessionId) : Party :=
  ⟨.start id t.version t.interval t.drain t.link t.now, .new t.room, [], []⟩

/-- Both ends of a session that begins, with pipes of these capacities. -/
def Pair.begin (id : SessionId) (s r : Terms) (forth back : Nat) : Pair :=
  ⟨s.begin id, r.begin id, .new forth, .new back⟩

/-- The links of a session that has been established: both are bound to it, and the receiver has
read everything the sender has sent before it and accepted no number above the sender's. -/
structure Established (id : SessionId) (sender receiver : Link) : Prop where
  bound : sender.binding = some id
  bound' : receiver.binding = some id
  read : receiver.reader.buffered = []
  ahead : receiver.inbound.lastSeen ≤ sender.outbound.last

theorem Established.inFlight {id : SessionId} {w : Worker} {l : Link} (h : Established id w.link l)
    (hphase : w.phase = .waiting) : InFlight id w [] l [] [] where
  bound := h.bound
  bound' := h.bound'
  stream_eq := by
    rw [h.read, Worker.unsent_of_waiting hphase]
    rfl
  whole _ := rfl
  named := List.forall_mem_nil _
  ordered := List.Pairwise.nil
  fresh := List.forall_mem_nil _
  counted := List.forall_mem_nil _
  ahead := h.ahead

end Session

end DeskLink
