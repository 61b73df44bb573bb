import DeskLink.Proofs.Session.Leaving
import DeskLink.Proofs.Session.Stream

/-!
# What a session says at its end

A session leaves its loop for one of four causes: a command, a notice of the other side, a report of
the other side, or a failure that it has found itself. The other side knows about the second and the
third, so there is something new to tell it only in the first and the last (`Cause.news?`).

But what is told is made from how the session ends, and there a failure that was reported looks like
one that was found. A report is therefore sent back, under the code that the failure has here; only
one of an internal failure is not, since that means a lost connection (`told?_eq_news?_iff`).

## What is written

What is told is one whole frame behind whole frames, if it can be sent and the stream takes it in
time. Otherwise it is a part of this frame, or nothing. Nothing else is written once the loop is
left, and a move that leaves it writes nothing.
-/

namespace DeskLink

/-- What a report means here is reported in turn, unless it was of an internal failure. -/
theorem Failure.report?_ofReport_eq_none_iff {own : Version} {r : Report} :
    (ofReport own r).report? = none ↔ r.code = .internal := by
  obtain ⟨code, description⟩ := r
  cases code <;> simp [ofReport, report?, code?]

namespace Session

/-! ## Causes -/

/-- Why a session leaves its loop. -/
inductive Cause where
  /-- It was told to close. -/
  | ordered (reason : CloseReason)
  /-- The other side has closed it. -/
  | closed (reason : CloseReason)
  /-- The other side has failed. -/
  | reported (r : Report)
  /-- This side has found a failure. -/
  | detected (why : Failure)

namespace Cause

/-- How the session ends then, on a side that speaks this version. -/
def ending (own : Version) : Cause → Ending
  | ordered reason => .ok ⟨.own, reason⟩
  | closed reason => .ok ⟨.peer, reason⟩
  | reported r => .error (.ofReport own r)
  | detected why => .error why

/-- What the other side does not know. -/
def news? : Cause → Option Message
  | ordered reason => some (.close reason)
  | closed _ | reported _ => none
  | detected why => why.report?.map .report

/-- What the other side is told. -/
def told? (own : Version) : Cause → Option Message
  | reported r => (Failure.ofReport own r).report?.map .report
  | k => k.news?

theorem farewell?_ending (own : Version) (k : Cause) :
    Worker.farewell? (k.ending own) = k.told? own := by
  cases k <;> rfl

/-- The other side is told its news, unless it has reported a failure and is told about it. -/
theorem told?_eq_news?_iff {own : Version} {k : Cause} :
    k.told? own = k.news? ↔ ∀ r, k = .reported r → r.code = .internal := by
  cases k with
  | reported r => simp [told?, news?, Failure.report?_ofReport_eq_none_iff]
  | ordered | closed | detected => exact ⟨fun _ _ ↦ nofun, fun _ ↦ rfl⟩

end Cause

namespace Worker

/-- The worker follows a command. -/
structure Heeds (w : Worker) (o : Offer) (reason : CloseReason) : Prop where
  phase_eq : w.phase = .waiting
  commandsOpen_eq : w.commandsOpen = true
  command_eq : o.command = some (some reason)

/-- The worker takes up a message of the other side. -/
structure Takes (w : Worker) (o : Offer) (m : Message) : Prop where
  listens : w.Listens o
  receive_eq : (w.link.receive o.read).1 = .frame (some m)

/-- Why a worker that is offered this leaves its loop. A failure is one that it has found itself if
there is no command, and it has taken up no notice and no report. -/
inductive Quits (w : Worker) (o : Offer) : Cause → Prop where
  | ordered {reason : CloseReason} (hheeds : w.Heeds o reason) : Quits w o (.ordered reason)
  | closed {reason : CloseReason} (hordered : ∀ r, ¬ w.Heeds o r)
      (htakes : w.Takes o (.close reason)) : Quits w o (.closed reason)
  | reported {r : Report} (hordered : ∀ r, ¬ w.Heeds o r) (htakes : w.Takes o (.report r)) :
      Quits w o (.reported r)
  | detected {why : Failure} (hordered : ∀ r, ¬ w.Heeds o r)
      (hclosed : ∀ reason, ¬ w.Takes o (.close reason)) (hreported : ∀ r, ¬ w.Takes o (.report r)) :
      Quits w o (.detected why)

variable {w w' : Worker} {o : Offer} {effect : Effect}

/-! ## Leaving the loop -/

/-- A message that cannot be sent ends the session with a failure. -/
theorem phase_send (w : Worker) (m : Message) :
    (w.send m).Running ∨ ∃ why, (w.send m).phase = .ending (.error why) := by
  have hsends := w.sends m
  generalize w.send m = w' at hsends ⊢
  cases hsends with
  | begins => exact .inl trivial
  | refuses => exact .inr ⟨_, rfl⟩

private theorem phase_beat (hphase : w.phase = .waiting) (now : Instant) :
    (w.beat now).Running ∨ ∃ why, (w.beat now).phase = .ending (.error why) := by
  unfold beat
  split
  rename_i due monitor _
  cases due with
  | nothing => exact .inl (running_of_waiting hphase)
  | beat token => exact phase_send _ _
  | stale silent => exact .inr ⟨_, rfl⟩

theorem Quits.of_arrival {arrival : Link.Arrival} {why : Failure} (hordered : ∀ r, ¬ w.Heeds o r)
    (harrival : w.Listens o → (w.link.receive o.read).1 = arrival)
    (hclose : ∀ reason, arrival ≠ .frame (some (.close reason)))
    (hreport : ∀ r, arrival ≠ .frame (some (.report r))) : w.Quits o (.detected why) := by
  refine .detected hordered (fun reason htakes ↦ hclose reason ?_) (fun r htakes ↦ hreport r ?_)
  all_goals exact (harrival htakes.listens).symm.trans htakes.receive_eq

theorem Quits.of_not_listens {why : Failure} (hordered : ∀ r, ¬ w.Heeds o r)
    (hdeaf : ¬ w.Listens o) : w.Quits o (.detected why) := by
  have hblocked : w.Listens o → (w.link.receive o.read).1 = .blocked := (absurd · hdeaf)
  exact .of_arrival hordered hblocked (fun _ ↦ nofun) (fun _ ↦ nofun)

private theorem quits_of_hears {m : Message} {link : Link} (hordered : ∀ r, ¬ w.Heeds o r)
    (hlistens : w.Listens o) (hreceive : w.link.receive o.read = (.frame (some m), link))
    (hover : ¬ (handle { w with link } o m).1.Running) :
    (handle { w with link } o m).2.written = [] ∧
      ∃ k, w.Quits o k ∧ (handle { w with link } o m).1.phase = .ending (k.ending w.version) := by
  have harrival := congrArg Prod.fst hreceive
  have hrunning : ∀ w₁ : Worker, w₁.phase = w.phase → w₁.Running := fun w₁ hphase ↦
    running_of_waiting (hphase.trans hlistens.phase_eq)
  cases m with
  | close reason => exact ⟨rfl, .closed reason, .closed hordered ⟨hlistens, harrival⟩, rfl⟩
  | report r => exact ⟨rfl, .reported r, .reported hordered ⟨hlistens, harrival⟩, rfl⟩
  | heartbeat token =>
    rcases phase_send { w with link } (.heartbeatAck token) with hgoes | ⟨why, hphase⟩
    · exact absurd hgoes hover
    · exact ⟨rfl, .detected why,
        .of_arrival hordered (fun _ ↦ harrival) (fun _ ↦ nofun) (fun _ ↦ nofun), hphase⟩
  | input | heartbeatAck | hello | auth | authResult => exact absurd (hrunning _ rfl) hover

/-- A worker prefers a command to anything else. -/
theorem step_of_heeds {reason : CloseReason} (hheeds : w.Heeds o reason) :
    w.step o = some (w.finish (.ok ⟨.own, reason⟩), .command) := by
  simp only [step, select, hheeds.phase_eq, hheeds.commandsOpen_eq, hheeds.command_eq]

/-- **A session leaves its loop for one cause**, which is how it ends, and writes nothing then. -/
theorem quits_of_step (h : w.step o = some (w', effect)) (hrunning : w.Running)
    (hover : ¬ w'.Running) :
    effect.written = [] ∧ ∃ k, w.Quits o k ∧ w'.phase = .ending (k.ending w.version) := by
  by_cases hcommand : ∃ reason, w.Heeds o reason
  · obtain ⟨reason, hheeds⟩ := hcommand
    obtain ⟨rfl, rfl⟩ := Prod.mk.inj (Option.some.inj ((step_of_heeds hheeds).symm.trans h))
    exact ⟨rfl, .ordered reason, .ordered hheeds, rfl⟩
  have hordered : ∀ r, ¬ w.Heeds o r := not_exists.mp hcommand
  cases does_step h with
  | obeys hphase hopen hreason => exact absurd ⟨hphase, hopen, hreason⟩ (hordered _)
  | hears hlistens hreceive => exact quits_of_hears hordered hlistens hreceive hover
  | beats hphase hdue =>
    rcases phase_beat hphase o.now with hgoes | ⟨why, hending⟩
    · exact absurd hgoes hover
    · exact ⟨rfl, .detected why,
        .of_not_listens hordered fun hlistens ↦ Nat.not_lt_of_le hdue hlistens.not_due, hending⟩
  | deafened hlistens hreceive =>
    exact ⟨rfl, .detected _, .of_arrival hordered (fun _ ↦ congrArg Prod.fst hreceive)
      (fun _ ↦ nofun) (fun _ ↦ nofun), rfl⟩
  | @forwards e link hlistens hreceive =>
    rcases phase_send w (.input e) with hgoes | ⟨why, hending⟩
    · exact absurd hgoes hover
    · exact ⟨rfl, .detected why, .of_arrival hordered (fun _ ↦ congrArg Prod.fst hreceive)
        (fun _ ↦ nofun) (fun _ ↦ nofun), hending⟩
  | stalls hphase | breaks hphase =>
    have hdeaf : ¬ w.Listens o := fun hlistens ↦
      Phase.noConfusion (hphase.symm.trans hlistens.phase_eq)
    exact ⟨rfl, .detected _, .of_not_listens hordered hdeaf, rfl⟩
  -- In these moves the worker stays in its loop, or has left it before.
  | abandoned hphase => exact absurd (running_of_waiting hphase) hover
  | reads hlistens | skips hlistens => exact absurd (running_of_waiting hlistens.phase_eq) hover
  | writes | completes => exact absurd trivial hover
  | parts hphase | bids hphase | parted hphase | abandons hphase | shuts hphase =>
    simp [Running, hphase] at hrunning

/-- A run that leaves the loop does it at one move, and there goes on. -/
theorem exists_leaving {offers : List Offer} (hrunning : w.Running)
    (hover : ¬ (w.course offers).2.Running) :
    ∃ before o after w' effect, offers = before ++ o :: after ∧ (w.course before).2.Running ∧
      (w.course before).2.step o = some (w', effect) ∧ ¬ w'.Running ∧
      w.course offers =
        ((w.course before).1 ++ (o, effect) :: (w'.course after).1, (w'.course after).2) := by
  -- The induction follows the offers up to the first move that ends outside the loop.
  induction offers generalizing w with
  | nil => exact absurd hrunning hover
  | cons o offers ih =>
    cases hstep : w.step o with
    | none =>
      have hskip : ∀ more, w.course (o :: more) = w.course more := fun more ↦ by
        rw [course, hstep]
      rw [hskip] at hover
      obtain ⟨before, last, after, w', effect, rfl, hbefore, hlast, hleft, hcourse⟩ :=
        ih hrunning hover
      refine ⟨o :: before, last, after, w', effect, rfl, ?_, ?_, hleft, ?_⟩
      · rwa [hskip]
      · rwa [hskip]
      · rwa [hskip, hskip]
    | some next =>
      obtain ⟨w₁, effect₁⟩ := next
      have hgoes : ∀ more, w.course (o :: more) =
          ((o, effect₁) :: (w₁.course more).1, (w₁.course more).2) := fun more ↦ by
        rw [course, hstep]
      by_cases hfirst : w₁.Running
      · rw [hgoes] at hover
        obtain ⟨before, last, after, w', effect, rfl, hbefore, hlast, hleft, hcourse⟩ :=
          ih hfirst hover
        refine ⟨o :: before, last, after, w', effect, rfl, ?_, ?_, hleft, ?_⟩
        · rwa [hgoes]
        · rwa [hgoes]
        · rw [hgoes, hgoes, hcourse, List.cons_append]
      · exact ⟨[], o, offers, w₁, effect₁, rfl, hrunning, hstep, hfirst, hgoes offers⟩

end Worker

/-! ## The farewell -/

/-- At this offer the time for the farewell is over, or the stream fails. -/
def Offer.Hampers (o : Offer) (until_ : Instant) : Prop :=
  until_ ≤ o.now ∨ ∃ (t : Frame.Transmission) (why : TransportError),
    t.advance o.write o.flush = .failed why

/-- These bytes are written over this link when this is to be told by this instant. -/
inductive Parting (l : Link) (until_ : Instant) (offers : List Offer) :
    Option Message → Bytes → Prop where
  | silent : Parting l until_ offers none []
  /-- The message is too long, or there is no number left for it. -/
  | unsendable {m : Message} {why : Failure} (hprepare : (l.prepare m).1 = .error why) :
      Parting l until_ offers (some m) []
  | told {m : Message} {seq : UInt32} {body : Bytes} (hseq : l.outbound.last < seq)
      (hbody : (l.envelope seq m).encode = .ok body) :
      Parting l until_ offers (some m) (Frame.wrap body)
  | brokenOff {m : Message} {seq : UInt32} {body b : Bytes} {o : Offer}
      (hseq : l.outbound.last < seq) (hbody : (l.envelope seq m).encode = .ok body)
      (hpart : b <+: Frame.wrap body) (ho : o ∈ offers) (hhampers : o.Hampers until_) :
      Parting l until_ offers (some m) b

namespace Worker

variable {w : Worker} {e e' : Ending} {t : Frame.Transmission} {until_ : Instant}

theorem writtenIn_of_shutting (offers : List Offer)
    (hphase : w.phase = .shutting e ∨ w.phase = .ended e) :
    writtenIn (w.course offers).1 = [] ∧
      ∀ e', (w.course offers).2.result? = some e' → e' = e := by
  induction offers generalizing w with
  | nil =>
    refine ⟨rfl, fun e' hresult ↦ ?_⟩
    rcases hphase with hphase | hphase <;> simp [course, result?, hphase] at hresult
    exact hresult.symm
  | cons o offers ih =>
    rcases hphase with hphase | hphase
    · simpa [course, step, hphase, Effect.written] using ih (.inr rfl)
    · simpa [course, step, hphase] using ih (.inr hphase)

/-- A farewell that has begun is written whole, unless it is given up. -/
theorem writtenIn_of_parting (offers : List Offer) (hphase : w.phase = .parting t until_ e)
    (hended : (w.course offers).2.result? = some e') :
    e' = e ∧ (writtenIn (w.course offers).1 = t.rest ∨
      writtenIn (w.course offers).1 <+: t.rest ∧ ∃ o ∈ offers, o.Hampers until_) := by
  induction offers generalizing w t with
  | nil => simp [course, result?, hphase] at hended
  | cons o offers ih =>
    -- Given up here, it is as it is, and nothing follows.
    have hgivesUp : o.Hampers until_ →
        w.step o = some ({ w with phase := .shutting e }, .none) →
        e' = e ∧ (writtenIn (w.course (o :: offers)).1 = t.rest ∨
          writtenIn (w.course (o :: offers)).1 <+: t.rest ∧
            ∃ o' ∈ o :: offers, o'.Hampers until_) := by
      intro hhampers hstep
      have hnothing :=
        writtenIn_of_shutting (w := { w with phase := .shutting e }) offers (.inl rfl)
      rw [course, hstep] at hended ⊢
      refine ⟨hnothing.2 e' hended, .inr ⟨?_, o, List.mem_cons_self, hhampers⟩⟩
      rw [writtenIn_cons, hnothing.1]
      exact List.nil_prefix
    cases hadvance : t.advance o.write o.flush with
    | blocked =>
      by_cases hlate : until_ ≤ o.now
      · exact hgivesUp (.inl hlate) (by simp [step, hphase, hadvance, hlate, quietly])
      · have hstep : w.step o = none := by simp [step, hphase, hadvance, hlate]
        rw [course, hstep] at hended ⊢
        obtain ⟨he, hwhole | ⟨hpart, o', ho', hhampers⟩⟩ := ih hphase hended
        · exact ⟨he, .inl hwhole⟩
        · exact ⟨he, .inr ⟨hpart, o', List.mem_cons_of_mem _ ho', hhampers⟩⟩
    | wrote b left =>
      have hrest := Frame.Transmission.rest_of_wrote hadvance
      have hstep : w.step o = some ({ w with phase := .parting left until_ e }, .wrote b) := by
        simp [step, hphase, hadvance]
      rw [course, hstep] at hended ⊢
      rw [writtenIn_cons, hrest]
      obtain ⟨he, hwhole | ⟨hpart, o', ho', hhampers⟩⟩ :=
        ih (w := { w with phase := .parting left until_ e }) rfl hended
      · exact ⟨he, .inl (congrArg (b ++ ·) hwhole)⟩
      · exact ⟨he, .inr ⟨(List.prefix_append_right_inj b).mpr hpart, o',
          List.mem_cons_of_mem _ ho', hhampers⟩⟩
    | finished =>
      have hstep : w.step o =
          some ({ w with link := w.link.sent t.size, phase := .shutting e }, .none) := by
        simp [step, hphase, hadvance, quietly]
      have hnothing := writtenIn_of_shutting
        (w := { w with link := w.link.sent t.size, phase := .shutting e }) offers (.inl rfl)
      rw [course, hstep] at hended ⊢
      refine ⟨hnothing.2 e' hended, .inl ?_⟩
      rw [writtenIn_cons, hnothing.1, Frame.Transmission.rest_of_finished hadvance]
      rfl
    | failed why =>
      exact hgivesUp (.inr ⟨t, why, hadvance⟩) (by simp [step, hphase, hadvance, quietly])

/-- When there is something to tell, it is on its way, or it cannot be sent. -/
theorem phase_part {m : Message} (now : Instant) (hfarewell : farewell? e = some m) :
    (∃ seq body t, w.link.outbound.last < seq ∧ (w.link.envelope seq m).encode = .ok body ∧
      t.rest = Frame.wrap body ∧ (w.part now e).phase = .parting t (now + w.drain) e) ∨
    ∃ why, (w.link.prepare m).1 = .error why ∧ (w.part now e).phase = .shutting e := by
  have hprepares := w.link.prepares m
  unfold part
  rw [hfarewell]
  dsimp only
  split <;> rename_i hprepare <;> rw [hprepare] at hprepares
  · cases hprepares with
    | begun hseq hbody ht => exact .inl ⟨_, _, _, hseq, hbody, ht, rfl⟩
  · exact .inr ⟨_, congrArg Prod.fst hprepare, rfl⟩

/-- **What a worker says that has left its loop.** -/
theorem parting_of_ending (o : Offer) (offers : List Offer) (hphase : w.phase = .ending e)
    (hended : (w.course (o :: offers)).2.result? = some e') :
    e' = e ∧ Parting w.link (o.now + w.drain) offers (farewell? e)
      (writtenIn (w.course (o :: offers)).1) := by
  have hstep : w.step o = some (w.part o.now e, .closedQueue) := by simp [step, hphase]
  have hcourse : w.course (o :: offers) =
      ((o, .closedQueue) :: ((w.part o.now e).course offers).1,
        ((w.part o.now e).course offers).2) := by
    rw [course, hstep]
  have hwritten : writtenIn (w.course (o :: offers)).1 =
      writtenIn ((w.part o.now e).course offers).1 := congrArg (writtenIn ·.1) hcourse
  rw [hcourse] at hended
  rw [hwritten]
  cases hfarewell : farewell? e with
  | none =>
    have hshuts : (w.part o.now e).phase = .shutting e := by
      rw [part, hfarewell]
    obtain ⟨hnothing, he⟩ := writtenIn_of_shutting offers (.inl hshuts)
    exact ⟨he e' hended, hnothing ▸ .silent⟩
  | some m =>
    rcases phase_part o.now hfarewell with
      ⟨seq, body, t, hseq, hbody, ht, hparting⟩ | ⟨why, hprepare, hshuts⟩
    · obtain ⟨he, hwhole | ⟨hpart, o', ho', hhampers⟩⟩ :=
        writtenIn_of_parting offers hparting hended
      · exact ⟨he, hwhole.trans ht ▸ .told hseq hbody⟩
      · exact ⟨he, .brokenOff hseq hbody (ht ▸ hpart) ho' hhampers⟩
    · obtain ⟨hnothing, he⟩ := writtenIn_of_shutting offers (.inl hshuts)
      exact ⟨he e' hended, hnothing ▸ .unsendable hprepare⟩

/-! ## The whole session -/

theorem terms_course (w : Worker) (offers : List Offer) : (w.course offers).2.terms = w.terms := by
  induction offers generalizing w with
  | nil => rfl
  | cons o offers ih =>
    rw [course]
    split
    · rename_i w' effect hstep
      exact (ih w').trans (terms_of_does (does_step hstep))
    · exact ih w

/-- A worker that has something to tell has written whole frames so far. -/
theorem written_whole {id : SessionId} {version : UInt8} {first : UInt32} {written : Bytes}
    {popped lost : List Event} {letters : List Letter} {missing : Bytes}
    (h : Writes id version first w written popped letters missing lost)
    (hphase : w.phase = .ending e) (hfarewell : farewell? e ≠ none) :
    written = Frame.stream (letters.map (·.body)) := by
  have hintact : w.Intact := by
    rw [Intact, hphase]
    exact hfarewell
  have hstream := h.inFlight.stream_eq
  rw [h.inFlight.whole hintact, unsent, hphase] at hstream
  simp only [List.append_nil] at hstream
  exact hstream

/-- **A session says at its end what follows from its cause.** A session that is over has left its
loop at some move for one cause, which is how it ends. From its next move on it has said, within the
time for the farewell, what the other side is told for that cause, behind whole frames. This is its
news, if it has any, and otherwise nothing, unless the cause is a report of any but an internal
failure. -/
theorem farewell_by_cause {id : SessionId} {link : Link} (hbound : link.binding = some id)
    (session : SessionId) (version : Version) (interval drain : Duration) (now : Instant)
    (offers : List Offer) {e : Ending}
    (hended : ((start session version interval drain link now).course offers).2.result? = some e) :
    let w := start session version interval drain link now
    ∃ before o last after w' effect k said,
      offers = before ++ o :: last :: after ∧ (w.course before).2.Running ∧
      (w.course before).2.step o = some (w', effect) ∧ (w.course before).2.Quits o k ∧
      e = k.ending version ∧ (w'.link.binding = some id ∧ w'.link.version = link.version) ∧
      writtenIn (w.course offers).1 = writtenIn (w.course before).1 ++ said ∧
      Parting w'.link (last.now + drain) after (k.told? version) said ∧
      (k.told? version ≠ none → ∃ letters : List Letter,
        writtenIn (w.course before).1 = Frame.stream (letters.map (·.body))) ∧
      (k.told? version = k.news? ↔ ∀ r, k = .reported r → r.code = .internal) := by
  intro w
  have hover : ¬ (w.course offers).2.Running := by
    rw [running_iff, leave_of_result? hended]
    decide
  obtain ⟨before, o, after, w', effect, rfl, hrunning, hstep, hleft, hcourse⟩ :=
    exists_leaving (w := w) trivial hover
  obtain ⟨hsilent, k, hquits, hphase⟩ := quits_of_step hstep hrunning hleft
  have hterms : (w.course before).2.terms = w.terms := terms_course w before
  have hversion : (w.course before).2.version = version := congrArg (·.2.1) hterms
  have hdrain : w'.drain = drain :=
    congrArg (·.2.2.1) ((terms_of_does (does_step hstep)).trans hterms)
  rw [hversion] at hphase
  rw [hcourse] at hended
  -- The session is not over yet when it has just left its loop.
  cases after with
  | nil => simp [course, result?, hphase] at hended
  | cons last after =>
    obtain ⟨he, hparting⟩ := parting_of_ending last after hphase hended
    obtain ⟨letters, missing, lost, hwrites⟩ :=
      (writes_start hbound session version interval drain now).course before
    obtain ⟨letters, missing, lost, hwrites⟩ := hwrites.does (does_step hstep)
    rw [hdrain, k.farewell?_ending] at hparting
    refine ⟨before, o, last, after, w', effect, k, _, rfl, hrunning, hstep, hquits, he,
      ⟨hwrites.inFlight.bound, hwrites.version_eq⟩, ?_, hparting, fun htold ↦ ⟨letters, ?_⟩,
      Cause.told?_eq_news?_iff⟩
    · rw [hcourse]
      simp [writtenIn, hsilent]
    · have hwhole := written_whole hwrites hphase (k.farewell?_ending version ▸ htold)
      simpa [hsilent] using hwhole

/-- The other side reports that the authentication has failed, and is told just that. -/
theorem report_sent_back :
    let id : SessionId := ⟨⟨List.replicate 16 7, rfl⟩⟩
    let link := (Link.new 1 1024).bind id
    let back : Message := .report ⟨.authFailed, "authentication failed"⟩
    let header : Bytes := [1, 7, 1] ++ List.replicate 16 7 ++ [0, 0, 0, 1]
    let heard := header ++ [2, 0, 2] ++ Utf8.encode "no"
    let told := header ++ [2, 0, 21] ++ Utf8.encode "authentication failed"
    let o (read : ReadReply) : Offer :=
      ⟨0, none, read, .accepts 99, .finished, true, none, .accepting⟩
    let offers := o (.data (Frame.wrap heard)) :: List.replicate 5 (o .notReady)
    let w := start id ⟨1, 0⟩ 1000 1000 link 0
    (w.course (offers.take 1)).2.Quits (o .notReady) (.reported ⟨.authFailed, "no"⟩) ∧
      (Envelope.mk 1 (some id) 1 back).encode = .ok told ∧
      writtenIn (w.course offers).1 = Frame.wrap told ∧
      ∃ e, (w.course offers).2.result? = some e ∧ ∃ k : Cause, e = k.ending ⟨1, 0⟩ ∧
        k.told? ⟨1, 0⟩ = some back := by
  intro id link back header heard told o offers w
  have hbound : link.binding = some id := rfl
  have hlistens : (w.course (offers.take 1)).2.Listens (o .notReady) :=
    ⟨by decide +kernel, by decide +kernel⟩
  have hresult : ((w.course offers).2.result?.bind farewell?) = some back := by decide +kernel
  refine ⟨.reported (fun _ hheeds ↦ nomatch hheeds.command_eq) ⟨hlistens, by decide +kernel⟩,
    by decide +kernel, by decide +kernel, ?_⟩
  obtain ⟨e, hended, hfarewell⟩ := Option.bind_eq_some_iff.mp hresult
  obtain ⟨before, last, next, after, w', effect, k, said, -, -, -, -, he, -⟩ :=
    farewell_by_cause hbound id ⟨1, 0⟩ 1000 1000 0 offers hended
  exact ⟨e, hended, k, he, by rw [← k.farewell?_ending, ← he, hfarewell]⟩

end Worker

end Session

end DeskLink
