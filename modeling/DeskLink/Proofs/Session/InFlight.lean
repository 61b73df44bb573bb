import DeskLink.Proofs.Session.Directions
import DeskLink.Proofs.Envelope.Size
import DeskLink.Proofs.Input.Accounting

/-!
# Letters on their way

Two sessions at the ends of a connection see a direction of it from both sides: one has written the
bytes of some frames and not yet those of others, the other has read some and not yet taken the
frames out of them. The letters on their way are the frames begun by the one and not yet taken by
the other, and `InFlight` says that they are exactly what all these bytes are. Their numbers are
between what the receiver has accepted and what the sender has given out, and increase, so none of
them is dropped.

`Tallies` follows the events that the letters carry: what was handed on, what is on its way and what
still waits in the queue make up what the queue has accepted, in this order. An event that the queue
has given out may also get lost, but only when the session of the sender ends over it, so that no
letter follows.
-/

namespace DeskLink.Session

/-- An envelope with its bytes. -/
structure Letter where
  envelope : Envelope
  body : Bytes
  encode_eq : envelope.encode = .ok body

namespace Letter

def event? (l : Letter) : Option Event := l.envelope.message.event?

theorem short (l : Letter) : Frame.Short l.body := Envelope.short_of_encode l.encode_eq

theorem decode_of_event? {l : Letter} {e : Event} (h : l.event? = some e) :
    Envelope.decode l.body = .ok l.envelope := by
  have hevent : l.envelope.message = .input e := by
    unfold event? Message.event? at h
    split at h
    · rename_i hmessage
      obtain rfl := Option.some.inj h
      exact hmessage
    · nomatch h
  simpa using Envelope.decode_of_input [] hevent l.encode_eq

theorem event?_eq_none_iff {l : Letter} :
    l.event? = none ↔ l.envelope.message.kind ≠ .input := Message.event?_eq_none_iff

theorem of_decode {l : Letter} {e : Envelope} (h : Envelope.decode l.body = .ok e) :
    e.seq = l.envelope.seq ∧ e.message.event? = l.event? := by
  cases hevent : l.event? with
  | some event =>
    obtain rfl := Except.ok.inj (h.symm.trans (decode_of_event? hevent))
    exact ⟨rfl, hevent⟩
  | none =>
    obtain ⟨-, -, hseq, hkind⟩ := Envelope.header_of_decode [] l.encode_eq (by simpa using h)
    refine ⟨hseq, Message.event?_eq_none_iff.mpr ?_⟩
    rw [hkind]
    exact event?_eq_none_iff.mp hevent

theorem of_begins {w w' : Worker} {m : Message} (h : w.Begins m w') :
    ∃ x : Letter, x.envelope = w.link.envelope w'.link.outbound.last m
      ∧ w'.unsent = Frame.wrap x.body := by
  obtain ⟨body, hbody, hunsent⟩ := h.frame
  exact ⟨⟨_, body, hbody⟩, rfl, hunsent⟩

/-- A frame that is taken from a stream of letters is the first of them. -/
theorem of_takeFrame {r r' : Frame.Reader} {body more : Bytes} {letters : List Letter}
    (hstream : r.buffered ++ more = Frame.stream (letters.map (·.body)))
    (htake : r.takeFrame = .ok (some (body, r'))) :
    ∃ x rest, letters = x :: rest ∧ x.body = body ∧
      r'.buffered ++ more = Frame.stream (rest.map (·.body)) := by
  have hshort : ∀ b ∈ letters.map (·.body), Frame.Short b := by
    intro b hb
    obtain ⟨x, -, rfl⟩ := List.mem_map.mp hb
    exact x.short
  -- The reader has only a part of the stream, and this is enough to take its first frame.
  obtain ⟨bodies, hbodies, hrest⟩ := Frame.Reader.of_takeFrame hshort hstream htake
  obtain ⟨x, rest, rfl, rfl, rfl⟩ := List.map_eq_cons_iff.mp hbodies
  exact ⟨x, rest, rfl, rfl, hrest⟩

end Letter

/-! ## The bytes -/

/-- The letters from this worker to this link are what has been read, is on the wire, is about to be
written and never will be. -/
structure InFlight (id : SessionId) (w : Worker) (wire : Bytes) (l : Link) (letters : List Letter)
    (missing : Bytes) : Prop where
  bound : w.link.binding = some id
  bound' : l.binding = some id
  stream_eq : l.reader.buffered ++ wire ++ w.unsent ++ missing = Frame.stream (letters.map (·.body))
  /-- As long as frames may follow, none is broken. -/
  whole : w.Intact → missing = []
  named : ∀ x ∈ letters, x.envelope.session = some id
  ordered : (letters.map (·.envelope.seq)).Pairwise (· < ·)
  fresh : ∀ x ∈ letters, l.inbound.lastSeen < x.envelope.seq
  counted : ∀ x ∈ letters, x.envelope.seq ≤ w.link.outbound.last
  ahead : l.inbound.lastSeen ≤ w.link.outbound.last

namespace InFlight

variable {id : SessionId} {w w' : Worker} {wire : Bytes} {l l' : Link} {letters : List Letter}
  {missing : Bytes}

theorem continues {b : Bytes} (h : InFlight id w wire l letters missing) (hw : w.Continues b w') :
    InFlight id w' (wire ++ b) l letters missing where
  bound := hw.binding_eq.trans h.bound
  bound' := h.bound'
  stream_eq := by
    rw [← h.stream_eq, hw.unsent_eq]
    simp only [List.append_assoc]
  whole hintact := h.whole (hw.intact hintact)
  named := h.named
  ordered := h.ordered
  fresh := h.fresh
  counted x hx := UInt32.le_trans (h.counted x hx) hw.outbound_le
  ahead := UInt32.le_trans h.ahead hw.outbound_le

theorem givesUp (h : InFlight id w wire l letters missing) (hunsent : w'.unsent = [])
    (hintact : ¬ w'.Intact) (hlink : w'.link = w.link) :
    InFlight id w' wire l letters (w.unsent ++ missing) where
  bound := hlink ▸ h.bound
  bound' := h.bound'
  stream_eq := by
    rw [← h.stream_eq, hunsent]
    simp only [List.append_assoc, List.nil_append]
  whole hw := absurd hw hintact
  named := h.named
  ordered := h.ordered
  fresh := h.fresh
  counted := hlink ▸ h.counted
  ahead := hlink ▸ h.ahead

theorem begins_letter {m : Message} {x : Letter} (h : InFlight id w wire l letters missing)
    (hw : w.Begins m w') (hx : x.envelope = w.link.envelope w'.link.outbound.last m)
    (hunsent : w'.unsent = Frame.wrap x.body) :
    InFlight id w' wire l (letters ++ [x]) missing := by
  have hmissing := h.whole hw.intact
  constructor
  · exact hw.binding_eq.trans h.bound
  · exact h.bound'
  · rw [hmissing, List.append_nil, List.map_append, Frame.stream_append, ← h.stream_eq,
      hw.unsent_eq, hmissing, hunsent]
    simp
  · exact fun _ ↦ hmissing
  · exact List.forall_mem_append.mpr ⟨h.named, by simpa [hx, Link.envelope] using h.bound⟩
  · rw [List.map_append, List.pairwise_append]
    refine ⟨h.ordered, List.pairwise_singleton _ _, ?_⟩
    simpa [hx, Link.envelope] using
      fun y hy ↦ UInt32.lt_of_le_of_lt (h.counted y hy) hw.outbound_lt
  · refine List.forall_mem_append.mpr ⟨h.fresh, ?_⟩
    simpa [hx, Link.envelope] using UInt32.lt_of_le_of_lt h.ahead hw.outbound_lt
  · refine List.forall_mem_append.mpr ⟨fun y hy ↦ ?_, by simp [hx, Link.envelope]⟩
    exact UInt32.le_of_lt (UInt32.lt_of_le_of_lt (h.counted y hy) hw.outbound_lt)
  · exact UInt32.le_of_lt (UInt32.lt_of_le_of_lt h.ahead hw.outbound_lt)

theorem begins {m : Message} (h : InFlight id w wire l letters missing) (hw : w.Begins m w') :
    ∃ x : Letter, x.envelope.message = m ∧ InFlight id w' wire l (letters ++ [x]) missing := by
  obtain ⟨x, hx, hunsent⟩ := Letter.of_begins hw
  exact ⟨x, by rw [hx, Link.envelope], h.begins_letter hw hx hunsent⟩

theorem reads {b : Bytes} (h : InFlight id w (b ++ wire) l letters missing)
    (hreader : l'.reader.buffered = l.reader.buffered ++ b) (hinbound : l'.inbound = l.inbound)
    (hbinding : l'.binding = l.binding) : InFlight id w wire l' letters missing where
  bound := h.bound
  bound' := hbinding.trans h.bound'
  stream_eq := by
    rw [← h.stream_eq, hreader]
    simp only [List.append_assoc]
  whole := h.whole
  named := h.named
  ordered := h.ordered
  fresh := hinbound ▸ h.fresh
  counted := h.counted
  ahead := hinbound ▸ h.ahead

theorem takes {body : Bytes} {reader : Frame.Reader} (h : InFlight id w wire l letters missing)
    (htake : l.reader.takeFrame = .ok (some (body, reader))) :
    ∃ x rest, letters = x :: rest ∧ x.body = body ∧ ∀ l' : Link, l'.reader = reader →
      (l'.inbound = l.inbound ∨ l'.inbound = ⟨x.envelope.seq⟩) → l'.binding = l.binding →
      InFlight id w wire l' rest missing := by
  have hstream : l.reader.buffered ++ (wire ++ w.unsent ++ missing)
      = Frame.stream (letters.map (·.body)) := by
    rw [← h.stream_eq]
    simp only [List.append_assoc]
  obtain ⟨x, rest, rfl, rfl, hrest⟩ := Letter.of_takeFrame hstream htake
  have hordered := List.pairwise_cons.mp h.ordered
  refine ⟨x, rest, rfl, rfl, fun l' hreader hinbound hbinding ↦ ?_⟩
  constructor
  · exact h.bound
  · exact hbinding.trans h.bound'
  · rw [hreader, ← hrest]
    simp only [List.append_assoc]
  · exact h.whole
  · exact fun y hy ↦ h.named y (List.mem_cons_of_mem _ hy)
  · exact hordered.2
  · intro y hy
    rcases hinbound with heq | heq
    · exact heq ▸ h.fresh y (List.mem_cons_of_mem _ hy)
    · exact heq ▸ hordered.1 _ (List.mem_map_of_mem hy)
  · exact fun y hy ↦ h.counted y (List.mem_cons_of_mem _ hy)
  · rcases hinbound with heq | heq
    · exact heq ▸ h.ahead
    · exact heq ▸ h.counted x List.mem_cons_self

/-- The first letter is not dropped when it carries an event. -/
theorem event?_eq_none_of_skip {x : Letter} (h : InFlight id w wire l letters missing)
    (hx : x ∈ letters) (hskip : ∀ e, Envelope.decode x.body = .ok e →
      (l.binding.isSome ∧ e.session ≠ l.binding) ∨ ¬ l.inbound.lastSeen < e.seq) :
    x.event? = none := by
  cases hevent : x.event? with
  | none => rfl
  | some event =>
    -- It would be read, so it could only be dropped as foreign or as late, and it is neither.
    rcases hskip _ (Letter.decode_of_event? hevent) with ⟨-, hforeign⟩ | hlate
    · exact absurd ((h.named x hx).trans h.bound'.symm) hforeign
    · exact absurd (h.fresh x hx) hlate

theorem letters_eq_nil (h : InFlight id w [] l letters missing) (hread : l.reader.buffered = [])
    (hphase : w.phase = .waiting) : letters = [] := by
  have hstream := h.stream_eq
  rw [hread, Worker.unsent_of_waiting hphase, h.whole (Worker.intact_of_waiting hphase)] at hstream
  exact List.map_eq_nil_iff.mp (Frame.eq_nil_of_stream_eq_nil hstream.symm)

end InFlight

/-! ## The events -/

/-- What became of the events that the queue of this worker has accepted: these were handed on,
these letters carry theirs, these are lost, and the queue holds the others. -/
structure Tallies (w : Worker) (q : Queue) (accepted injected : List Event) (letters : List Letter)
    (lost : List Event) : Prop where
  accounts : q.Accounts accepted (injected ++ letters.filterMap Letter.event? ++ lost)
  lost_eq : w.Running → lost = []
  queue_open : w.Running → q.closed = false

namespace Tallies

variable {w w' : Worker} {q : Queue} {accepted injected : List Event} {letters : List Letter}
  {lost : List Event}

theorem mono (h : Tallies w q accepted injected letters lost) (hw : w'.Running → w.Running) :
    Tallies w' q accepted injected letters lost :=
  ⟨h.accounts, fun hrunning ↦ h.lost_eq (hw hrunning), fun hrunning ↦ h.queue_open (hw hrunning)⟩

theorem tells {x : Letter} (h : Tallies w q accepted injected letters lost) (hx : x.event? = none) :
    Tallies w q accepted injected (letters ++ [x]) lost := by
  refine ⟨?_, h.lost_eq, h.queue_open⟩
  rw [List.filterMap_append, List.filterMap_cons, hx, List.filterMap_nil, List.append_nil]
  exact h.accounts

theorem forwards {x : Letter} {e : Event} {rest : List Event}
    (h : Tallies w q accepted injected letters lost) (hrunning : w.Running)
    (hevents : q.events = e :: rest) (hx : x.event? = some e) :
    Tallies w { q with events := rest } accepted injected (letters ++ [x]) lost := by
  refine ⟨?_, h.lost_eq, h.queue_open⟩
  have haccounts := h.accounts.pop hevents
  -- Nothing is lost as long as the worker runs, so the letter comes last.
  have hlost := h.lost_eq hrunning
  rw [List.filterMap_append, List.filterMap_cons, hx, List.filterMap_nil]
  simpa [hlost] using haccounts

/-- The oldest event leaves the queue for nothing, and that is the end of the session. -/
theorem loses {e : Event} {rest : List Event} (h : Tallies w q accepted injected letters lost)
    (hover : ¬ w'.Running) (hevents : q.events = e :: rest) :
    Tallies w' { q with events := rest } accepted injected letters (lost ++ [e]) := by
  refine ⟨?_, fun hrunning ↦ absurd hrunning hover, fun hrunning ↦ absurd hrunning hover⟩
  rw [← List.append_assoc]
  exact h.accounts.pop hevents

theorem closes (h : Tallies w q accepted injected letters lost) (hover : ¬ w'.Running) :
    Tallies w' q.close.2 accepted injected letters lost :=
  ⟨h.accounts.close, fun hrunning ↦ absurd hrunning hover, fun hrunning ↦ absurd hrunning hover⟩

theorem push {q' : Queue} {e : Event} {outcome : PushOutcome}
    (h : Tallies w q accepted injected letters lost) (hpush : q.tryPush e = .ok (outcome, q')) :
    Tallies w q' (if outcome.accepts then accepted ++ [e] else accepted) injected letters lost :=
  ⟨h.accounts.push hpush, h.lost_eq,
    fun hrunning ↦ (Queue.closed_of_tryPush hpush).trans (h.queue_open hrunning)⟩

theorem takes {x : Letter} (h : Tallies w q accepted injected (x :: letters) lost) :
    Tallies w q accepted (injected ++ x.event?.toList) letters lost := by
  refine ⟨?_, h.lost_eq, h.queue_open⟩
  have haccounts := h.accounts
  cases hx : x.event? with
  | none => simpa [List.filterMap_cons, hx] using haccounts
  | some e => simpa [List.filterMap_cons, hx] using haccounts

end Tallies

end DeskLink.Session
