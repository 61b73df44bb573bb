import DeskLink.Handshake.Conduct
import DeskLink.Proofs.Link

/-!
# What a move of a handshake can be

What is proved about runs of a handshake over a stream goes through the list below of what a single
move can be: at each phase, what it takes from the surroundings, what it leaves behind and what it
reports. Two things a move can do have lists of their own: starting to send a message, and what
becomes of a handshake whose budget is used up.

`run` strings moves together. An offer that gives no move is passed over, as one waits for the next
one, so a run is given by the list of everything that was offered.
-/

namespace DeskLink.Handshake.Conduct

variable {c : Conduct}

/-! ## Starting to send -/

/-- What can become of a conduct that starts to send a message. -/
inductive Sends (c : Conduct) (m : Message) (pending : List Action) : Conduct → Prop where
  | begins {seq : UInt32} {body : Bytes} {t : Frame.Transmission}
      (hseq : c.link.outbound.last < seq)
      (hbody : (c.link.envelope seq m).encode = .ok body) (ht : t.rest = Frame.wrap body) :
      Sends c m pending
        { c with link := { c.link with outbound := ⟨seq⟩ }, phase := .sending t pending }
  /-- There is no number left, or one was used up for nothing. -/
  | refuses {why : Failure} {outbound : Sequence.Counter}
      (hle : c.link.outbound.last ≤ outbound.last) :
      Sends c m pending (sendFailed { c with link := { c.link with outbound } } pending why)

private theorem sends_act (c : Conduct) (o : Offer) (m : Message) (pending : List Action) :
    c.Sends m pending (c.act o (.send m) pending).1 ∧ (c.act o (.send m) pending).2 = .none := by
  have hprepares := c.link.prepares m
  unfold act
  simp only
  split <;> rename_i hprepare <;> rw [hprepare] at hprepares
  · cases hprepares with
    | begun hseq hbody ht => exact ⟨.begins hseq hbody ht, rfl⟩
  · cases hprepares with
    | exhausted => exact ⟨.refuses (UInt32.le_refl _), rfl⟩
    | refused hseq => exact ⟨.refuses (UInt32.le_of_lt hseq), rfl⟩

/-- What can become of a conduct whose budget is used up. -/
inductive Expires (c : Conduct) (now : Instant) : Conduct → Prop where
  /-- A report of that is begun. -/
  | begins {r : Report} {seq : UInt32} {body : Bytes} {t : Frame.Transmission}
      (hreport : (Failure.timeout c.budget.millis).report? = some r)
      (hseq : c.link.outbound.last < seq)
      (hbody : (c.link.envelope seq (.report r)).encode = .ok body)
      (ht : t.rest = Frame.wrap body) :
      Expires c now { c with
        machine := (c.machine.fail (.timeout c.budget.millis)).2
        link := { c.link with outbound := ⟨seq⟩ }
        phase := .farewell t (now + farewellBudget) (.timeout c.budget.millis) }
  /-- The machine is over, or the report cannot be sent. -/
  | silent {outbound : Sequence.Counter} (hle : c.link.outbound.last ≤ outbound.last) :
      Expires c now { c with
        machine := (c.machine.fail (.timeout c.budget.millis)).2
        link := { c.link with outbound }
        phase := .shutting (.timeout c.budget.millis) }

/-- A machine that fails sends nothing but a report of the failure. -/
theorem exists_report_of_fail {m : Machine} {why : Failure} {said : Message} {rest : List Action}
    (h : (m.fail why).1 = .send said :: rest) : ∃ r, why.report? = some r ∧ said = .report r := by
  unfold Machine.fail at h
  split at h
  · nomatch h
  · rename_i hopen
    cases hreport : why.report? with
    | none => simp [Machine.abort, hopen, hreport] at h
    | some r =>
      simp only [Machine.abort, hopen, hreport, Option.map_some, Option.toList_some,
        List.singleton_append, List.cons.injEq, Action.send.injEq] at h
      exact ⟨r, rfl, h.1.symm⟩

theorem expires (c : Conduct) (now : Instant) : c.Expires now (c.expire now) := by
  unfold expire
  simp only
  split
  · rename_i said _ hactions
    obtain ⟨r, hreport, rfl⟩ := exists_report_of_fail hactions
    have hprepares := c.link.prepares (.report r)
    split <;> rename_i hprepare <;> rw [hprepare] at hprepares
    · cases hprepares with
      | begun hseq hbody ht => exact .begins hreport hseq hbody ht
    · cases hprepares with
      | exhausted => exact .silent (UInt32.le_refl _)
      | refused hseq => exact .silent (UInt32.le_of_lt hseq)
  · exact .silent (UInt32.le_refl _)

/-! ## Moves -/

/-- A conduct can do nothing within its budget but wait. -/
inductive Waits (c : Conduct) (o : Offer) : Prop where
  | toHear (hphase : c.phase = .acting []) (hreceive : (c.link.receive o.read).1 = .blocked)
  | toSend {t : Frame.Transmission} {pending : List Action} (hphase : c.phase = .sending t pending)
      (hblocked : t.advance o.write o.flush = .blocked)

/-- What a conduct can do with what its surroundings offer. -/
inductive Does (c : Conduct) (o : Offer) : Conduct → Effect → Prop where
  | tells {m : Message} {pending : List Action} {c' : Conduct}
      (hphase : c.phase = .acting (.send m :: pending)) (hsends : c.Sends m pending c') :
      Does c o c' .none
  /-- The registry gives a place. -/
  | placed {pending : List Action} (hphase : c.phase = .acting (.reserve :: pending))
      (hhosting : c.hosting = true) (hreserve : o.reserve = .ok ()) :
      Does c o (c.react pending (c.machine.admitted o.nonce)) .reserved
  | refused {pending : List Action} {why : Failure}
      (hphase : c.phase = .acting (.reserve :: pending)) (hhosting : c.hosting = true)
      (hreserve : o.reserve = .error why) :
      Does c o (c.react pending (c.machine.fail why)) .reserved
  /-- The registry registers the session. -/
  | registered {pending : List Action} {peer : Identity} {version : Version} {id : SessionId}
      (hphase : c.phase = .acting (.register :: pending)) (hhosting : c.hosting = true)
      (hpeer : c.machine.peer = some peer) (hversion : c.machine.version = some version)
      (hregister : o.register peer version = .ok id) :
      Does c o (c.react pending (c.machine.registered id)) (.registered peer version)
  | rejected {pending : List Action} {peer : Identity} {version : Version} {why : Failure}
      (hphase : c.phase = .acting (.register :: pending)) (hhosting : c.hosting = true)
      (hpeer : c.machine.peer = some peer) (hversion : c.machine.version = some version)
      (hregister : o.register peer version = .error why) :
      Does c o (c.react pending (c.machine.fail why)) (.registered peer version)
  /-- There is nobody to ask, or nobody to ask for. -/
  | unasked {a : Action} {pending : List Action} {why : Failure}
      (hphase : c.phase = .acting (a :: pending)) (ha : a = .reserve ∨ a = .register) :
      Does c o (c.react pending (c.machine.fail why)) .none
  | establishes {id : SessionId} {pending : List Action} {result : Except Failure Outcome}
      (hphase : c.phase = .acting (.establish id :: pending))
      (hresult : result = match c.machine.outcome? with
        | some outcome => .ok outcome
        | none => .error noPeer) :
      Does c o { c with link := c.link.bind id, phase := .ended result } .none
  | closes {why : Failure} {pending : List Action}
      (hphase : c.phase = .acting (.close why :: pending)) :
      Does c o { c with phase := .shutting why } .none
  | reads {count : Nat} {link : Link} (hphase : c.phase = .acting [])
      (hreceive : c.link.receive o.read = (.read count, link)) :
      Does c o { c with link } (.read count)
  /-- The link has dropped a frame. -/
  | skips {link : Link} (hphase : c.phase = .acting [])
      (hreceive : c.link.receive o.read = (.frame none, link)) : Does c o { c with link } .none
  | hears {m : Message} {link : Link} (hphase : c.phase = .acting [])
      (hreceive : c.link.receive o.read = (.frame (some m), link)) :
      Does c o (react { c with link } [] (c.machine.onMessage m)) .none
  /-- Nothing can be received any more. -/
  | deafened {why : Failure} {link : Link} (hphase : c.phase = .acting [])
      (hreceive : c.link.receive o.read = (.failed why, link)) :
      Does c o (react { c with link } [] (c.machine.fail why)) .none
  | writes {t left : Frame.Transmission} {pending : List Action} {b : Bytes}
      (hphase : c.phase = .sending t pending)
      (hwrote : t.advance o.write o.flush = .wrote b left) :
      Does c o { c with phase := .sending left pending } (.wrote b)
  | completes {t : Frame.Transmission} {pending : List Action}
      (hphase : c.phase = .sending t pending)
      (hfinished : t.advance o.write o.flush = .finished) :
      Does c o { c with link := c.link.sent t.size, phase := .acting pending } .none
  | breaks {t : Frame.Transmission} {pending : List Action} {why : TransportError}
      (hphase : c.phase = .sending t pending)
      (hfailed : t.advance o.write o.flush = .failed why) :
      Does c o (c.sendFailed pending (.ofTransport why)) .none
  | expires {c' : Conduct} (hwaits : c.Waits o) (hdue : c.deadline ≤ o.now)
      (hexpires : c.Expires o.now c') : Does c o c' .none
  | bids {t left : Frame.Transmission} {until_ : Instant} {why : Failure} {b : Bytes}
      (hphase : c.phase = .farewell t until_ why)
      (hwrote : t.advance o.write o.flush = .wrote b left) :
      Does c o { c with phase := .farewell left until_ why } (.wrote b)
  | parted {t : Frame.Transmission} {until_ : Instant} {why : Failure}
      (hphase : c.phase = .farewell t until_ why)
      (hfinished : t.advance o.write o.flush = .finished) :
      Does c o { c with link := c.link.sent t.size, phase := .shutting why } .none
  /-- The farewell took too long or could not be written. -/
  | abandons {t : Frame.Transmission} {until_ : Instant} {why : Failure}
      (hphase : c.phase = .farewell t until_ why)
      (hgone : until_ ≤ o.now ∨ ∃ why, t.advance o.write o.flush = .failed why) :
      Does c o { c with phase := .shutting why } .none
  | shuts {why : Failure} (hphase : c.phase = .shutting why) :
      Does c o { c with machine := c.machine.finish, phase := .ended (.error why) } .shut

theorem does_act {o : Offer} {a : Action} {pending : List Action}
    (hphase : c.phase = .acting (a :: pending)) :
    c.Does o (c.act o a pending).1 (c.act o a pending).2 := by
  cases a with
  | send m =>
    obtain ⟨hsends, heffect⟩ := c.sends_act o m pending
    exact heffect ▸ .tells hphase hsends
  | reserve =>
    unfold act
    simp only
    split
    · rename_i hhosting
      split
      · exact .placed hphase hhosting ‹_›
      · exact .refused hphase hhosting ‹_›
    · exact .unasked hphase (.inl rfl)
  | register =>
    unfold act
    simp only
    split
    · rename_i hhosting hpeer hversion
      split
      · exact .registered hphase hhosting hpeer hversion ‹_›
      · exact .rejected hphase hhosting hpeer hversion ‹_›
    · exact .unasked hphase (.inr rfl)
  | establish id =>
    unfold act
    simp only
    split
    · exact .establishes hphase (by simp only [‹c.machine.outcome? = some _›])
    · exact .establishes hphase (by simp only [‹c.machine.outcome? = none›])
  | close why => exact .closes hphase

theorem does_listen {o : Offer} {c' : Conduct} {effect : Effect} (hphase : c.phase = .acting [])
    (h : c.listen o = some (c', effect)) : c.Does o c' effect := by
  unfold listen at h
  split at h
  · nomatch h
  all_goals obtain ⟨rfl, rfl⟩ := Prod.mk.inj (Option.some.inj h)
  · exact .reads hphase ‹_›
  · exact .skips hphase ‹_›
  · exact .hears hphase ‹_›
  · exact .deafened hphase ‹_›

private theorem does_drive {o : Offer} {c' : Conduct} {effect : Effect}
    (h : c.drive o = some (c', effect)) : c.Does o c' effect := by
  unfold drive at h
  split at h
  · exact does_listen ‹_› h
  · have hdoes := does_act (o := o) ‹c.phase = .acting (_ :: _)›
    rw [Option.some.inj h] at hdoes
    exact hdoes
  · split at h
    · nomatch h
    all_goals obtain ⟨rfl, rfl⟩ := Prod.mk.inj (Option.some.inj h)
    · exact .writes ‹_› ‹_›
    · exact .completes ‹_› ‹_›
    · exact .breaks ‹_› ‹_›
  · nomatch h

private theorem waits_of_drive {o : Offer} (hended : ∀ r, c.phase ≠ .ended r)
    (hshutting : ∀ why, c.phase ≠ .shutting why)
    (hfarewell : ∀ t until_ why, c.phase ≠ .farewell t until_ why) (h : c.drive o = none) :
    c.Waits o := by
  unfold drive at h
  split at h
  · unfold listen at h
    split at h
    · rename_i hreceive
      exact .toHear ‹_› (by rw [hreceive])
    all_goals nomatch h
  · nomatch h
  · split at h
    · exact .toSend ‹_› ‹_›
    all_goals nomatch h
  · cases hphase : c.phase with
    | acting pending => cases pending <;> simp_all
    | sending t pending => simp_all
    | farewell t until_ why => exact absurd hphase (hfarewell t until_ why)
    | shutting why => exact absurd hphase (hshutting why)
    | ended r => exact absurd hphase (hended r)

/-- **A move is one of these.** -/
theorem does_step {o : Offer} {c' : Conduct} {effect : Effect} (h : c.step o = some (c', effect)) :
    c.Does o c' effect := by
  unfold step at h
  split at h
  · nomatch h
  · obtain ⟨rfl, rfl⟩ := Prod.mk.inj (Option.some.inj h)
    exact .shuts ‹_›
  · unfold part at h
    split at h
    · split at h
      · obtain ⟨rfl, rfl⟩ := Prod.mk.inj (Option.some.inj h)
        exact .abandons ‹_› (.inl ‹_›)
      · nomatch h
    all_goals obtain ⟨rfl, rfl⟩ := Prod.mk.inj (Option.some.inj h)
    · exact .bids ‹_› ‹_›
    · exact .parted ‹_› ‹_›
    · exact .abandons ‹_› (.inr ⟨_, ‹_›⟩)
  · rename_i hended hshutting hfarewell
    split at h
    · rename_i hdrive
      exact does_drive (hdrive.trans h)
    · split at h
      · obtain ⟨rfl, rfl⟩ := Prod.mk.inj (Option.some.inj h)
        exact .expires (waits_of_drive hended hshutting hfarewell ‹_›) ‹_› (c.expires o.now)
      · nomatch h

/-! ## Runs -/

/-- Everything that is made of these offers, and what becomes of the conduct. -/
def run (c : Conduct) : List Offer → List Effect × Conduct
  | [] => ([], c)
  | o :: rest =>
    match c.step o with
    | some (c, effect) => (effect :: (c.run rest).1, (c.run rest).2)
    | none => c.run rest

@[simp] theorem run_nil : c.run [] = ([], c) := rfl

theorem run_append (c : Conduct) (before after : List Offer) :
    c.run (before ++ after) = ((c.run before).1 ++ ((c.run before).2.run after).1,
      ((c.run before).2.run after).2) := by
  induction before generalizing c with
  | nil => rfl
  | cons o rest ih =>
    rw [List.cons_append, run, run]
    split
    · rw [ih]
      rfl
    · exact ih c

end DeskLink.Handshake.Conduct
