import DeskLink.Session.Worker
import DeskLink.Proofs.Link

/-!
# What a move can be

Everything that is proved about runs of a session goes through the list below of what a single move
can be: at each phase, what it takes from the surroundings, what it leaves behind and what it
reports. The guards stay in the list, also those that only say that something better was not to be
had, since some results are about just that preference.

Two things a move can do have lists of their own, because they come up at several places: starting
to send a message, and starting the farewell.
-/

namespace DeskLink.Session.Worker

variable {w : Worker}

/-! ## Starting to send -/

/-- What can become of a worker that starts to send a message. -/
inductive Sends (w : Worker) (m : Message) : Worker → Prop where
  | begins {seq : UInt32} {body : Bytes} {t : Frame.Transmission}
      (hseq : w.link.outbound.last < seq)
      (hbody : (w.link.envelope seq m).encode = .ok body) (ht : t.rest = Frame.wrap body) :
      Sends w m { w with link := { w.link with outbound := ⟨seq⟩ }, phase := .sending t }
  /-- There is no number left, or one was used up for nothing. -/
  | refuses {why : Failure} {outbound : Sequence.Counter}
      (hle : w.link.outbound.last ≤ outbound.last) :
      Sends w m (finish { w with link := { w.link with outbound } } (.error why))

theorem sends (w : Worker) (m : Message) : w.Sends m (w.send m) := by
  have hprepares := w.link.prepares m
  unfold send
  split <;> rename_i hprepare <;> rw [hprepare] at hprepares
  · cases hprepares with
    | begun hseq hbody ht => exact .begins hseq hbody ht
  · cases hprepares with
    | exhausted => exact .refuses (UInt32.le_refl _)
    | refused hseq => exact .refuses (UInt32.le_of_lt hseq)

/-- What can become of a worker whose session has ended like this. -/
inductive Parts (w : Worker) (now : Instant) (e : Ending) : Worker → Prop where
  /-- There is nothing to say. -/
  | silent (hfarewell : farewell? e = none) : Parts w now e { w with phase := .shutting e }
  | begins {m : Message} {seq : UInt32} {body : Bytes} {t : Frame.Transmission}
      (hfarewell : farewell? e = some m) (hseq : w.link.outbound.last < seq)
      (hbody : (w.link.envelope seq m).encode = .ok body) (ht : t.rest = Frame.wrap body) :
      Parts w now e { w with
        link := { w.link with outbound := ⟨seq⟩ }, phase := .parting t (now + w.drain) e }
  | refuses {m : Message} {outbound : Sequence.Counter} (hfarewell : farewell? e = some m)
      (hle : w.link.outbound.last ≤ outbound.last) :
      Parts w now e { w with link := { w.link with outbound }, phase := .shutting e }

theorem parts (w : Worker) (now : Instant) (e : Ending) : w.Parts now e (w.part now e) := by
  unfold part
  split
  · exact .silent ‹_›
  · rename_i m hfarewell
    have hprepares := w.link.prepares m
    split <;> rename_i hprepare <;> rw [hprepare] at hprepares
    · cases hprepares with
      | begun hseq hbody ht => exact .begins hfarewell hseq hbody ht
    · cases hprepares with
      | exhausted => exact .refuses hfarewell (UInt32.le_refl _)
      | refused hseq => exact .refuses hfarewell (UInt32.le_of_lt hseq)

/-! ## Moves -/

/-- The worker waits, and nothing is due. -/
structure Listens (w : Worker) (o : Offer) : Prop where
  phase_eq : w.phase = .waiting
  not_due : o.now < w.monitor.nextWakeup

/-- What a worker can do with what its surroundings offer. -/
inductive Does (w : Worker) (o : Offer) : Worker → Effect → Prop where
  /-- A command closes the session. -/
  | obeys {reason : CloseReason} (hphase : w.phase = .waiting) (hopen : w.commandsOpen = true)
      (hcommand : o.command = some (some reason)) :
      Does w o (w.finish (.ok ⟨.own, reason⟩)) .command
  /-- Nobody can give a command any more. -/
  | abandoned (hphase : w.phase = .waiting) (hopen : w.commandsOpen = true)
      (hcommand : o.command = some none) : Does w o { w with commandsOpen := false } .none
  /-- A heartbeat may be due. -/
  | beats (hphase : w.phase = .waiting) (hdue : w.monitor.nextWakeup ≤ o.now) :
      Does w o (w.beat o.now) .none
  | reads {count : Nat} {link : Link} (hlistens : w.Listens o)
      (hreceive : w.link.receive o.read = (.read count, link)) :
      Does w o { w with link } (.read count)
  /-- The link has dropped a frame. -/
  | skips {link : Link} (hlistens : w.Listens o)
      (hreceive : w.link.receive o.read = (.frame none, link)) : Does w o { w with link } .none
  | hears {m : Message} {link : Link} (hlistens : w.Listens o)
      (hreceive : w.link.receive o.read = (.frame (some m), link)) :
      Does w o (handle { w with link } o m).1 (handle { w with link } o m).2
  /-- Nothing can be received any more. -/
  | deafened {why : Failure} {link : Link} (hlistens : w.Listens o)
      (hreceive : w.link.receive o.read = (.failed why, link)) :
      Does w o (finish { w with link } (.error why)) .none
  /-- There is no message, so an input event is sent. -/
  | forwards {e : Event} {link : Link} (hlistens : w.Listens o)
      (hreceive : w.link.receive o.read = (.blocked, link)) (hopen : o.queueOpen = true)
      (hevent : o.event = some e) : Does w o (w.send (.input e)) .popped
  /-- Sending has taken too long. -/
  | stalls {t : Frame.Transmission} (hphase : w.phase = .sending t)
      (hblocked : t.advance o.write o.flush = .blocked) (hstale : w.monitor.staleAt ≤ o.now) :
      Does w o (w.finish (.error (stalled (o.now - w.monitor.lastAck)))) .none
  | writes {t left : Frame.Transmission} {b : Bytes} (hphase : w.phase = .sending t)
      (hwrote : t.advance o.write o.flush = .wrote b left) :
      Does w o { w with phase := .sending left } (.wrote b)
  | completes {t : Frame.Transmission} (hphase : w.phase = .sending t)
      (hfinished : t.advance o.write o.flush = .finished) :
      Does w o { w with link := w.link.sent t.size, phase := .waiting } .none
  | breaks {t : Frame.Transmission} {why : TransportError} (hphase : w.phase = .sending t)
      (hfailed : t.advance o.write o.flush = .failed why) :
      Does w o (w.finish (.error (.ofTransport why))) .none
  | parts {e : Ending} {w' : Worker} (hphase : w.phase = .ending e) (hparts : w.Parts o.now e w') :
      Does w o w' .closedQueue
  | bids {t left : Frame.Transmission} {until_ : Instant} {e : Ending} {b : Bytes}
      (hphase : w.phase = .parting t until_ e)
      (hwrote : t.advance o.write o.flush = .wrote b left) :
      Does w o { w with phase := .parting left until_ e } (.wrote b)
  | parted {t : Frame.Transmission} {until_ : Instant} {e : Ending}
      (hphase : w.phase = .parting t until_ e)
      (hfinished : t.advance o.write o.flush = .finished) :
      Does w o { w with link := w.link.sent t.size, phase := .shutting e } .none
  /-- The farewell took too long or could not be written. -/
  | abandons {t : Frame.Transmission} {until_ : Instant} {e : Ending}
      (hphase : w.phase = .parting t until_ e)
      (hgone : until_ ≤ o.now ∨ ∃ why, t.advance o.write o.flush = .failed why) :
      Does w o { w with phase := .shutting e } .none
  | shuts {e : Ending} (hphase : w.phase = .shutting e) :
      Does w o { w with phase := .ended e } .shut

theorem does_listen {o : Offer} {w' : Worker} {effect : Effect} (hlistens : w.Listens o)
    (h : w.listen o = some (w', effect)) : w.Does o w' effect := by
  unfold listen at h
  split at h
  · unfold forward at h
    split at h
    · obtain ⟨rfl, rfl⟩ := Prod.mk.inj (Option.some.inj h)
      exact .forwards hlistens ‹_› ‹_› ‹_›
    · nomatch h
  · obtain ⟨rfl, rfl⟩ := Prod.mk.inj (Option.some.inj h)
    exact .reads hlistens ‹_›
  · obtain ⟨rfl, rfl⟩ := Prod.mk.inj (Option.some.inj h)
    exact .skips hlistens ‹_›
  · obtain ⟨hworker, heffect⟩ := Prod.mk.inj (Option.some.inj h)
    exact hworker ▸ heffect ▸ .hears hlistens ‹_›
  · obtain ⟨rfl, rfl⟩ := Prod.mk.inj (Option.some.inj h)
    exact .deafened hlistens ‹_›

private theorem does_select {o : Offer} {w' : Worker} {effect : Effect}
    (hphase : w.phase = .waiting) (h : w.select o = some (w', effect)) : w.Does o w' effect := by
  unfold select at h
  split at h
  · obtain ⟨rfl, rfl⟩ := Prod.mk.inj (Option.some.inj h)
    exact .obeys hphase ‹_› ‹_›
  · obtain ⟨rfl, rfl⟩ := Prod.mk.inj (Option.some.inj h)
    exact .abandoned hphase ‹_› ‹_›
  · split at h
    · obtain ⟨rfl, rfl⟩ := Prod.mk.inj (Option.some.inj h)
      exact .beats hphase ‹_›
    · exact does_listen ⟨hphase, Nat.lt_of_not_le ‹_›⟩ h

/-- **A move is one of these.** -/
theorem does_step {o : Offer} {w' : Worker} {effect : Effect} (h : w.step o = some (w', effect)) :
    w.Does o w' effect := by
  unfold step at h
  split at h
  · exact does_select ‹_› h
  · split at h
    · split at h
      · obtain ⟨rfl, rfl⟩ := Prod.mk.inj (Option.some.inj h)
        exact .stalls ‹_› ‹_› ‹_›
      · nomatch h
    all_goals obtain ⟨rfl, rfl⟩ := Prod.mk.inj (Option.some.inj h)
    · exact .writes ‹_› ‹_›
    · exact .completes ‹_› ‹_›
    · exact .breaks ‹_› ‹_›
  · obtain ⟨rfl, rfl⟩ := Prod.mk.inj (Option.some.inj h)
    exact .parts ‹_› (w.parts o.now _)
  · split at h
    · split at h
      · obtain ⟨rfl, rfl⟩ := Prod.mk.inj (Option.some.inj h)
        exact .abandons ‹_› (.inl ‹_›)
      · nomatch h
    all_goals obtain ⟨rfl, rfl⟩ := Prod.mk.inj (Option.some.inj h)
    · exact .bids ‹_› ‹_›
    · exact .parted ‹_› ‹_›
    · exact .abandons ‹_› (.inr ⟨_, ‹_›⟩)
  · obtain ⟨rfl, rfl⟩ := Prod.mk.inj (Option.some.inj h)
    exact .shuts ‹_›
  · nomatch h

/-! ## What no move changes -/

/-- What a worker keeps: its session and version, the time for the farewell, and the version that
its envelopes name. -/
def terms (w : Worker) : SessionId × Version × Duration × UInt8 :=
  (w.session, w.version, w.drain, w.link.version)

/-- These, and whether there may still be commands. -/
def standing (w : Worker) : (SessionId × Version × Duration × UInt8) × Bool :=
  (w.terms, w.commandsOpen)

theorem standing_send (w : Worker) (m : Message) : (w.send m).standing = w.standing := by
  have hsends := w.sends m
  generalize w.send m = w' at hsends ⊢
  cases hsends <;> rfl

private theorem standing_beat (w : Worker) (now : Instant) :
    (w.beat now).standing = w.standing := by
  unfold beat
  split
  rename_i due monitor _
  cases due with
  | nothing | stale => rfl
  | beat token => exact standing_send _ _

private theorem standing_handle (w : Worker) (o : Offer) (m : Message) :
    (w.handle o m).1.standing = w.standing := by
  cases m with
  | heartbeat token => exact standing_send w _
  | input _ | heartbeatAck _ | close _ | report _ | hello _ | auth _ | authResult _ => rfl

theorem standing_received {link : Link} {reply : ReadReply} {arrival : Link.Arrival}
    (h : w.link.receive reply = (arrival, link)) : standing { w with link } = w.standing := by
  obtain ⟨_, _, _, rfl⟩ := Link.outgoing_receive h
  rfl

theorem standing_of_does {o : Offer} {w' : Worker} {effect : Effect} (h : w.Does o w' effect) :
    w'.standing = w.standing ∨ w'.terms = w.terms ∧ o.command = some none := by
  cases h with
  | abandoned _ _ hcommand => exact .inr ⟨rfl, hcommand⟩
  | beats => exact .inl (standing_beat w _)
  | hears _ hreceive => exact .inl ((standing_handle _ o _).trans (standing_received hreceive))
  | reads _ hreceive | skips _ hreceive | deafened _ hreceive =>
    exact .inl (standing_received hreceive)
  | forwards => exact .inl (standing_send w _)
  | parts _ hparts => cases hparts <;> exact .inl rfl
  | obeys | stalls | writes | completes | breaks | bids | parted | abandons | shuts =>
    exact .inl rfl

theorem terms_of_does {o : Offer} {w' : Worker} {effect : Effect} (h : w.Does o w' effect) :
    w'.terms = w.terms := by
  rcases standing_of_does h with hsame | ⟨hterms, -⟩
  · exact congrArg Prod.fst hsame
  · exact hterms

theorem commandsOpen_of_does {o : Offer} {w' : Worker} {effect : Effect} (h : w.Does o w' effect)
    (hcommand : o.command ≠ some none) : w'.commandsOpen = w.commandsOpen := by
  rcases standing_of_does h with hsame | ⟨-, hnone⟩
  · exact congrArg Prod.snd hsame
  · exact absurd hnone hcommand

theorem session_of_does {o : Offer} {w' : Worker} {effect : Effect} (h : w.Does o w' effect) :
    w'.session = w.session := congrArg Prod.fst (terms_of_does h)

theorem version_of_does {o : Offer} {w' : Worker} {effect : Effect} (h : w.Does o w' effect) :
    w'.link.version = w.link.version := congrArg (·.2.2.2) (terms_of_does h)

end DeskLink.Session.Worker
