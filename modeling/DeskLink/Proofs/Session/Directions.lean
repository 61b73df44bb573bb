import DeskLink.Session.Outlet
import DeskLink.Proofs.Session.Moves
import DeskLink.Proofs.Transport.Framing

/-!
# The two directions of a session

A session sends and receives, and a move has to do with both: it may write while a frame is half
read. But what it does in one direction does not depend on the other. `Speaks` lists what a move can
be when only the direction in which the worker sends is looked at, `Hears` the same for the other
one. These two lists, and not that of all moves, are what the statements about messages on their way
are proved from. Most moves only go on with the frame on its way or give it up; `Carries` says so
once, for `Speaks` and for every other list that asks what the frames are.

When a frame that was begun is given up, the stream is of no use any more: whatever was written
after it would be taken for its rest. A worker is `Intact` as long as this has not happened or
is without consequence, since the worker still means to write. That the two never come together is
because a frame is given up only for a failure that has no code, so that there is no farewell.
-/

namespace DeskLink

def Message.event? : Message → Option Event
  | .input e => some e
  | _ => none

theorem Message.event?_eq_none_iff {m : Message} : m.event? = none ↔ m.kind ≠ .input := by
  cases m <;> simp [event?, kind]

namespace Session

namespace Effect

def written : Effect → Bytes
  | .wrote b => b
  | _ => []

def consumed : Effect → Nat
  | .read count => count
  | _ => 0

/-- The event that a move handed to the injector. -/
def injected? : Effect → Option Event
  | .injected e => some e
  | _ => Option.none

/-- Everybody else finds the input queue as it was. -/
def LeavesQueue : Effect → Prop
  | .popped | .closedQueue => False
  | _ => True

theorem LeavesQueue.queue_eq {effect : Effect} (h : effect.LeavesQueue) (out : Outlet) :
    (effect.applyOutlet out).queue = out.queue := by
  cases effect with
  | popped | closedQueue => exact h.elim
  | _ => rfl

theorem buffered_outgoing_apply (effect : Effect) (e : Endpoint) :
    (effect.apply e).outgoing.buffered = e.outgoing.buffered ++ effect.written := by
  cases effect with
  | wrote b => rfl
  | _ => exact (List.append_nil _).symm

theorem buffered_incoming_apply (effect : Effect) (e : Endpoint) :
    (effect.apply e).incoming.buffered = e.incoming.buffered.drop effect.consumed := by
  cases effect <;> rfl

theorem closed_outgoing_apply (effect : Effect) (e : Endpoint)
    (h : (effect.apply e).outgoing.closed = false) : e.outgoing.closed = false := by
  cases effect with
  | shut => nomatch h
  | _ => exact h

theorem closed_incoming_apply (effect : Effect) (e : Endpoint)
    (h : (effect.apply e).incoming.closed = false) : e.incoming.closed = false := by
  cases effect with
  | shut => nomatch h
  | _ => exact h

end Effect

instance (phase : Phase) : Decidable (phase = .waiting) :=
  match phase with
  | .waiting => isTrue rfl
  | .sending _ | .ending _ | .parting .. | .shutting _ | .ended _ => isFalse nofun

namespace Worker

variable {w w' : Worker} {o : Offer} {effect : Effect}

/-! ## What is said -/

/-- What the stream has not taken of the frame on its way. -/
def unsent (w : Worker) : Bytes :=
  match w.phase with
  | .sending t | .parting t _ _ => t.rest
  | _ => []

/-- The session has not ended. -/
def Running (w : Worker) : Prop :=
  match w.phase with
  | .waiting | .sending _ => True
  | _ => False

/-- The worker may still write, and each frame that it began has gone out or is on its way. -/
def Intact (w : Worker) : Prop :=
  match w.phase with
  | .waiting | .sending _ | .parting .. => True
  | .ending e => farewell? e ≠ none
  | .shutting _ | .ended _ => False

/-- The worker has written these bytes of what was on its way, and begun nothing. -/
structure Continues (w : Worker) (b : Bytes) (w' : Worker) : Prop where
  unsent_eq : w.unsent = b ++ w'.unsent
  intact : w'.Intact → w.Intact
  running : w'.Running → w.Running
  binding_eq : w'.link.binding = w.link.binding
  outbound_le : w.link.outbound.last ≤ w'.link.outbound.last

/-- The worker has begun to send a message. -/
structure Begins (w : Worker) (m : Message) (w' : Worker) : Prop where
  unsent_eq : w.unsent = []
  intact : w.Intact
  running : w'.Running → w.Running
  binding_eq : w'.link.binding = w.link.binding
  outbound_lt : w.link.outbound.last < w'.link.outbound.last
  frame : ∃ body, (w.link.envelope w'.link.outbound.last m).encode = .ok body ∧
    w'.unsent = Frame.wrap body

/-- What a move can be for the direction in which a worker sends. -/
inductive Speaks (w : Worker) (o : Offer) (w' : Worker) : Effect → Prop where
  | continues {effect : Effect} (hqueue : effect.LeavesQueue)
      (hcontinues : w.Continues effect.written w') : Speaks w o w' effect
  /-- What was on its way is given up. -/
  | givesUp (hunsent : w'.unsent = []) (hintact : ¬ w'.Intact) (hrunning : ¬ w'.Running)
      (hlink : w'.link = w.link) : Speaks w o w' .none
  | tells {m : Message} (hm : m.kind ≠ .input) (hbegins : w.Begins m w') : Speaks w o w' .none
  | forwards {e : Event} (hrunning : w.Running) (hevent : o.event = some e)
      (hbegins : w.Begins (.input e) w') : Speaks w o w' .popped
  /-- An event was taken from the queue, but could not be sent. -/
  | loses {e : Event} (hover : ¬ w'.Running) (hevent : o.event = some e)
      (hcontinues : w.Continues [] w') : Speaks w o w' .popped
  | leaves (hover : ¬ w.Running) (hcontinues : w.Continues [] w') : Speaks w o w' .closedQueue
  | bids {m : Message} (hover : ¬ w.Running) (hm : m.kind ≠ .input) (hbegins : w.Begins m w') :
      Speaks w o w' .closedQueue

theorem continues_of_phase_eq (hphase : w'.phase = w.phase)
    (hbinding : w'.link.binding = w.link.binding)
    (hle : w.link.outbound.last ≤ w'.link.outbound.last) : w.Continues [] w' := by
  refine ⟨?_, ?_, ?_, hbinding, hle⟩
  · rw [unsent, unsent, hphase, List.nil_append]
  · rw [Intact, Intact, hphase]
    exact id
  · rw [Running, Running, hphase]
    exact id

theorem continues_finish {w₁ : Worker} (hphase : w.phase = .waiting) (e : Ending)
    (hbinding : w₁.link.binding = w.link.binding)
    (hle : w.link.outbound.last ≤ w₁.link.outbound.last) : w.Continues [] (w₁.finish e) := by
  refine ⟨?_, ?_, False.elim, hbinding, hle⟩
  · rw [unsent, hphase]
    rfl
  · rw [Intact, Intact, hphase]
    exact fun _ ↦ trivial

theorem intact_of_waiting (hphase : w.phase = .waiting) : w.Intact := by
  rw [Intact, hphase]
  trivial

theorem running_of_waiting (hphase : w.phase = .waiting) : w.Running := by
  rw [Running, hphase]
  trivial

theorem unsent_of_waiting (hphase : w.phase = .waiting) : w.unsent = [] := by
  rw [unsent, hphase]

/-- A waiting worker that takes up a message begins with it, or its session is over. -/
theorem begins_or_continues {w₁ : Worker} (hphase : w.phase = .waiting) (m : Message)
    (hversion : w₁.link.version = w.link.version) (hbinding : w₁.link.binding = w.link.binding)
    (houtbound : w₁.link.outbound = w.link.outbound) :
    w.Begins m (w₁.send m) ∨ (¬ (w₁.send m).Running ∧ w.Continues [] (w₁.send m)) := by
  have hsends := w₁.sends m
  generalize w₁.send m = w' at hsends ⊢
  cases hsends with
  | @begins seq body t hseq hbody ht =>
    rw [houtbound] at hseq
    have henvelope : w₁.link.envelope seq m = w.link.envelope seq m := by
      rw [Link.envelope, Link.envelope, hversion, hbinding]
    exact .inl ⟨unsent_of_waiting hphase, intact_of_waiting hphase,
      fun _ ↦ running_of_waiting hphase, hbinding, hseq, body, henvelope ▸ hbody, ht⟩
  | refuses hle =>
    rw [houtbound] at hle
    exact .inr ⟨id, continues_finish hphase _ hbinding hle⟩

theorem speaks_send {w₁ : Worker} {m : Message} (hphase : w.phase = .waiting)
    (hm : m.kind ≠ .input) (hversion : w₁.link.version = w.link.version)
    (hbinding : w₁.link.binding = w.link.binding) (houtbound : w₁.link.outbound = w.link.outbound) :
    w.Speaks o (w₁.send m) .none := by
  rcases begins_or_continues hphase m hversion hbinding houtbound with hbegins | ⟨-, hcontinues⟩
  · exact .tells hm hbegins
  · exact .continues trivial hcontinues

private theorem speaks_beat (hphase : w.phase = .waiting) (now : Instant) :
    w.Speaks o (w.beat now) .none := by
  unfold beat
  split
  rename_i due monitor _
  cases due with
  | nothing =>
    exact .continues trivial (continues_of_phase_eq rfl rfl (UInt32.le_refl _))
  | beat token => exact speaks_send hphase (by simp [Message.kind]) rfl rfl rfl
  | stale silent =>
    exact .continues trivial (continues_finish hphase _ rfl (UInt32.le_refl _))

private theorem speaks_handle {w₁ : Worker} (hphase : w.phase = .waiting) (m : Message)
    (hsame : w₁.phase = w.phase) (hversion : w₁.link.version = w.link.version)
    (hbinding : w₁.link.binding = w.link.binding) (houtbound : w₁.link.outbound = w.link.outbound) :
    w.Speaks o (w₁.handle o m).1 (w₁.handle o m).2 := by
  have hle : w.link.outbound.last ≤ w₁.link.outbound.last := houtbound ▸ UInt32.le_refl _
  have hstays : ∀ w₂ : Worker, w₂.phase = w₁.phase → w₂.link = w₁.link → w.Continues [] w₂ :=
    fun w₂ hphase₂ hlink ↦
      continues_of_phase_eq (hphase₂.trans hsame) (hlink ▸ hbinding) (hlink ▸ hle)
  cases m with
  | input e => exact .continues trivial (hstays _ rfl rfl)
  | heartbeat token => exact speaks_send hphase (by simp [Message.kind]) hversion hbinding houtbound
  | heartbeatAck token =>
    exact .continues trivial (hstays _ rfl rfl)
  | close reason | report r =>
    exact .continues trivial (continues_finish hphase _ hbinding hle)
  | hello h | auth a | authResult v =>
    exact .continues trivial (hstays _ rfl rfl)

theorem continues_of_rest {t left : Frame.Transmission} {b : Bytes}
    {on : Frame.Transmission → Phase} (hon : on = .sending ∨ ∃ until_ e, on = (.parting · until_ e))
    (hphase : w.phase = on t) (hrest : t.rest = b ++ left.rest) :
    w.Continues b { w with phase := on left } := by
  rcases hon with rfl | ⟨until_, e, rfl⟩
  · refine ⟨?_, ?_, ?_, rfl, UInt32.le_refl _⟩
    · simpa only [unsent, hphase] using hrest
    · simp [Intact, hphase]
    · simp [Running, hphase]
  · refine ⟨?_, ?_, ?_, rfl, UInt32.le_refl _⟩
    · simpa only [unsent, hphase] using hrest
    · simp [Intact, hphase]
    · simp [Running]

private theorem kind_of_farewell? {e : Ending} {m : Message} (h : farewell? e = some m) :
    m.kind ≠ .input := by
  unfold farewell? at h
  split at h
  · obtain rfl := Option.some.inj h
    exact Kind.noConfusion
  · nomatch h
  · obtain ⟨report, -, rfl⟩ := Option.map_eq_some_iff.mp h
    exact Kind.noConfusion

/-- A failure without a code leaves nothing to say. -/
theorem not_intact_finish_lost (w : Worker) (text : String) :
    ¬ (w.finish (.error (.lost text))).Intact := fun h ↦ h rfl

private theorem speaks_parts {now : Instant} {e : Ending} (hphase : w.phase = .ending e)
    (h : w.Parts now e w') : w.Speaks o w' .closedQueue := by
  have hunsent : w.unsent = [] := by rw [unsent, hphase]
  have hover : ¬ w.Running := by
    rw [Running, hphase]
    exact id
  cases h with
  | silent hfarewell =>
    exact .leaves hover ⟨hunsent, False.elim, False.elim, rfl, UInt32.le_refl _⟩
  | @begins m seq body t hfarewell hseq hbody ht =>
    have hintact : w.Intact := by
      rw [Intact, hphase]
      exact fun hnone ↦ nomatch hnone.symm.trans hfarewell
    exact .bids hover (kind_of_farewell? hfarewell)
      ⟨hunsent, hintact, False.elim, rfl, hseq, body, hbody, ht⟩
  | refuses hfarewell hle => exact .leaves hover ⟨hunsent, False.elim, False.elim, rfl, hle⟩

/-- The moves by what becomes of the frame on its way. Those that may begin one stay apart. -/
inductive Carries (w : Worker) (o : Offer) : Worker → Effect → Prop where
  | goesOn {w' : Worker} {effect : Effect} (hqueue : effect.LeavesQueue)
      (hcontinues : w.Continues effect.written w') : Carries w o w' effect
  | givesUp {w' : Worker} (hunsent : w'.unsent = []) (hintact : ¬ w'.Intact)
      (hrunning : ¬ w'.Running) (hlink : w'.link = w.link) : Carries w o w' .none
  | beats (hphase : w.phase = .waiting) : Carries w o (w.beat o.now) .none
  | hears {m : Message} {link : Link} (hlistens : w.Listens o)
      (hreceive : w.link.receive o.read = (.frame (some m), link)) :
      Carries w o (handle { w with link } o m).1 (handle { w with link } o m).2
  | forwards {e : Event} (hphase : w.phase = .waiting) (hevent : o.event = some e) :
      Carries w o (w.send (.input e)) .popped
  | parts {e : Ending} {w' : Worker} (hphase : w.phase = .ending e) (hparts : w.Parts o.now e w') :
      Carries w o w' .closedQueue

theorem carries_of_does (h : w.Does o w' effect) : w.Carries o w' effect := by
  cases h with
  | obeys hphase => exact .goesOn trivial (continues_finish hphase _ rfl (UInt32.le_refl _))
  | abandoned => exact .goesOn trivial (continues_of_phase_eq rfl rfl (UInt32.le_refl _))
  | beats hphase => exact .beats hphase
  | reads _ hreceive | skips _ hreceive =>
    obtain ⟨reader, inbound, count, rfl⟩ := Link.outgoing_receive hreceive
    exact .goesOn trivial (continues_of_phase_eq rfl rfl (UInt32.le_refl _))
  | hears hlistens hreceive => exact .hears hlistens hreceive
  | deafened hlistens hreceive =>
    obtain ⟨reader, inbound, count, rfl⟩ := Link.outgoing_receive hreceive
    exact .goesOn trivial (continues_finish hlistens.phase_eq _ rfl (UInt32.le_refl _))
  | forwards hlistens _ _ hevent => exact .forwards hlistens.phase_eq hevent
  -- The frame on its way is given up, but for a failure without a code, so nothing follows it.
  | stalls => exact .givesUp rfl (not_intact_finish_lost _ _) id rfl
  | writes hphase hwrote =>
    exact .goesOn trivial
      (continues_of_rest (.inl rfl) hphase (Frame.Transmission.rest_of_wrote hwrote))
  | completes hphase hfinished =>
    refine .goesOn trivial ⟨?_, ?_, ?_, rfl, UInt32.le_refl _⟩
    · rw [unsent, hphase]
      exact Frame.Transmission.rest_of_finished hfinished
    · simp [Intact, hphase]
    · simp [Running, hphase]
  | breaks _ hfailed =>
    obtain ⟨text, rfl⟩ := Frame.Transmission.exists_io_of_failed hfailed
    exact .givesUp rfl (not_intact_finish_lost _ _) id rfl
  | parts hphase hparts => exact .parts hphase hparts
  | bids hphase hwrote =>
    exact .goesOn trivial
      (continues_of_rest (.inr ⟨_, _, rfl⟩) hphase (Frame.Transmission.rest_of_wrote hwrote))
  | parted hphase hfinished =>
    refine .goesOn trivial ⟨?_, False.elim, False.elim, rfl, UInt32.le_refl _⟩
    rw [unsent, hphase]
    exact Frame.Transmission.rest_of_finished hfinished
  | abandons => exact .givesUp rfl id id rfl
  | shuts hphase =>
    refine .goesOn trivial ⟨?_, False.elim, False.elim, rfl, UInt32.le_refl _⟩
    rw [unsent, hphase]
    rfl

theorem speaks_of_does (h : w.Does o w' effect) : w.Speaks o w' effect := by
  cases carries_of_does h with
  | goesOn hqueue hcontinues => exact .continues hqueue hcontinues
  | givesUp hunsent hintact hrunning hlink => exact .givesUp hunsent hintact hrunning hlink
  | beats hphase => exact speaks_beat hphase _
  | hears hlistens hreceive =>
    obtain ⟨reader, inbound, count, rfl⟩ := Link.outgoing_receive hreceive
    exact speaks_handle hlistens.phase_eq _ rfl rfl rfl rfl
  -- An event that was taken and cannot be sent is lost, but then the session is over.
  | forwards hphase hevent =>
    rcases begins_or_continues hphase _ rfl rfl rfl with hbegins | ⟨hover, hcontinues⟩
    · exact .forwards (running_of_waiting hphase) hevent hbegins
    · exact .loses hover hevent hcontinues
  | parts hphase hparts => exact speaks_parts hphase hparts

theorem binding_of_speaks (h : w.Speaks o w' effect) : w'.link.binding = w.link.binding := by
  cases h with
  | continues _ hcontinues => exact hcontinues.binding_eq
  | givesUp _ _ _ hlink => rw [hlink]
  | tells _ hbegins => exact hbegins.binding_eq
  | forwards _ _ hbegins => exact hbegins.binding_eq
  | loses _ _ hcontinues => exact hcontinues.binding_eq
  | leaves _ hcontinues => exact hcontinues.binding_eq
  | bids _ _ hbegins => exact hbegins.binding_eq

/-! ## What is heard -/

/-- The worker has the same frames before it, and has accepted the same ones. -/
def SameInbox (w w' : Worker) : Prop :=
  w'.link.reader = w.link.reader ∧ w'.link.inbound = w.link.inbound

/-- What a move can be for the direction in which a worker receives. -/
inductive Hears (w : Worker) (o : Offer) (w' : Worker) : Effect → Prop where
  | deaf {effect : Effect} (hconsumed : effect.consumed = 0) (hinjected : effect.injected? = none)
      (hinbox : w.SameInbox w') : Hears w o w' effect
  | reads {b : Bytes} (hread : o.read = .data b) (hreader : w'.link.reader = w.link.reader.feed b)
      (hinbound : w'.link.inbound = w.link.inbound) : Hears w o w' (.read b.length)
  /-- A frame was taken that has nothing for this session. -/
  | skips {body : Bytes} {reader : Frame.Reader}
      (htake : w.link.reader.takeFrame = .ok (some (body, reader)))
      (hskip : ∀ e, Envelope.decode body = .ok e → (w.link.binding.isSome ∧
        e.session ≠ w.link.binding) ∨ ¬ w.link.inbound.lastSeen < e.seq)
      (hreader : w'.link.reader = reader) (hinbound : w'.link.inbound = w.link.inbound) :
      Hears w o w' .none
  /-- A frame was taken and its message handled. -/
  | takes {effect : Effect} {body : Bytes} {reader : Frame.Reader} {e : Envelope}
      (htake : w.link.reader.takeFrame = .ok (some (body, reader)))
      (hdecode : Envelope.decode body = .ok e) (hreader : w'.link.reader = reader)
      (hinbound : w'.link.inbound = ⟨e.seq⟩) (hconsumed : effect.consumed = 0)
      (hinjected : effect.injected? = e.message.event?) : Hears w o w' effect

theorem sameInbox_send (w : Worker) (m : Message) : w.SameInbox (w.send m) := by
  have hsends := w.sends m
  generalize w.send m = w' at hsends ⊢
  cases hsends <;> exact ⟨rfl, rfl⟩

theorem sameInbox_beat (w : Worker) (now : Instant) : w.SameInbox (w.beat now) := by
  unfold beat
  split
  rename_i due monitor _
  cases due with
  | beat token => exact sameInbox_send { w with monitor } _
  | nothing | stale _ => exact ⟨rfl, rfl⟩

theorem sameInbox_parts {now : Instant} {e : Ending} (h : w.Parts now e w') : w.SameInbox w' := by
  cases h <;> exact ⟨rfl, rfl⟩

/-- A message is handed to the injector exactly if it is an input event. -/
theorem handle_spec (w : Worker) (o : Offer) (m : Message) :
    w.SameInbox (w.handle o m).1 ∧ (w.handle o m).2.consumed = 0
      ∧ (w.handle o m).2.injected? = m.event? := by
  cases m with
  | heartbeat token => exact ⟨sameInbox_send w _, rfl, rfl⟩
  | _ => exact ⟨⟨rfl, rfl⟩, rfl, rfl⟩

theorem hears_of_does (h : w.Does o w' effect) : w.Hears o w' effect := by
  cases h with
  | obeys _ _ _ => exact .deaf rfl rfl ⟨rfl, rfl⟩
  | abandoned _ _ _ => exact .deaf rfl rfl ⟨rfl, rfl⟩
  | beats _ _ => exact .deaf rfl rfl (sameInbox_beat w _)
  | reads _ hreceive =>
    have hreceives := Link.receives_of_receive hreceive
    cases hreceives with | read _ hread => exact .reads hread rfl rfl
  | skips _ hreceive =>
    have hreceives := Link.receives_of_receive hreceive
    cases hreceives with
    | unknown htake hdecode => exact .skips htake (fun e he ↦ absurd he (hdecode e)) rfl rfl
    | dropped htake hdecode hdrop =>
      refine .skips htake (fun e he ↦ ?_) rfl rfl
      obtain rfl := Except.ok.inj (hdecode.symm.trans he)
      exact hdrop
  | hears _ hreceive =>
    have hreceives := Link.receives_of_receive hreceive
    cases hreceives with
    | passed htake hdecode _ _ =>
      obtain ⟨⟨hreader, hinbound⟩, hconsumed, hinjected⟩ := handle_spec { w with link := _ } o _
      exact .takes htake hdecode hreader hinbound hconsumed hinjected
  | deafened _ hreceive =>
    have hreceives := Link.receives_of_receive hreceive
    cases hreceives with
    | lost => exact .deaf rfl rfl ⟨rfl, rfl⟩
    -- The session fails over this frame, but has taken it out of the buffer.
    | malformed htake hdecode => exact .skips htake (fun e he ↦ absurd he (hdecode e)) rfl rfl
  | forwards _ _ _ _ => exact .deaf rfl rfl (sameInbox_send w _)
  | stalls _ _ _ => exact .deaf rfl rfl ⟨rfl, rfl⟩
  | writes _ _ => exact .deaf rfl rfl ⟨rfl, rfl⟩
  | completes _ _ => exact .deaf rfl rfl ⟨rfl, rfl⟩
  | breaks _ _ => exact .deaf rfl rfl ⟨rfl, rfl⟩
  | parts _ hparts => exact .deaf rfl rfl (sameInbox_parts hparts)
  | bids _ _ => exact .deaf rfl rfl ⟨rfl, rfl⟩
  | parted _ _ => exact .deaf rfl rfl ⟨rfl, rfl⟩
  | abandons _ _ => exact .deaf rfl rfl ⟨rfl, rfl⟩
  | shuts _ => exact .deaf rfl rfl ⟨rfl, rfl⟩

end Worker

end Session

end DeskLink
