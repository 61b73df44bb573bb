import DeskLink.Proofs.Client.Ownership
import DeskLink.Proofs.Session.Farewell

/-!
# What becomes of a session of a client

From afar a session has begun, and at some time its end is noted. Here it is looked at with its
worker and its mailbox. Whatever happens to a client is one of its `Changes`, a change is for at
most one session, and `Run.Turns` says what it is for that one.

A client that never has more than one session is connected by it until its end is noted, so the
session never takes itself for abandoned, and all the commands that it gets are those of its client.
That is why a session can be told to close: it takes the command as soon as it has sent what it is
sending. It never takes it if how it ends is settled before, or if what it is sending does not get
through (`Complies`).
-/

namespace DeskLink.Client

open Session (Worker Outlet Mailbox Ending)

/-! ## One session -/

namespace Run

variable {r r' told : Run}

/-- What the session finds while the client is connected by it. -/
def attended (r : Run) : Outlet :=
  { r.outlet with commands := { r.outlet.commands with abandoned := false } }

/-- The session after it was asked to close. -/
def asked (r : Run) : Run :=
  { r with outlet := { r.outlet with commands := (r.outlet.commands.post .userInitiated).2 } }

/-- The session has just begun. -/
structure Fresh (r : Run) : Prop where
  commands_eq : r.outlet.commands = .new
  commandsOpen_eq : r.worker.commandsOpen = true
  phase_eq : r.worker.phase = .waiting
  ended_eq : r.ended = none

/-- What a change of the client can be for one of its sessions. -/
inductive Turns (r : Run) : Run → Prop where
  | asked : Turns r r.asked
  | handed (id : SessionId) (e : Event) : Turns r { r with outlet := (r.outlet.hand id e).2 }
  | moves {o : Session.Offer} {w : Worker} {effect : Session.Effect}
      (hcommand : o.command = r.attended.commands.next?)
      (hstep : r.worker.step o = some (w, effect)) :
      Turns r { r with worker := w, outlet := effect.applyOutlet r.attended }
  | concludes {e : Ending} (hresult : r.worker.result? = some e) (hended : r.ended = none) :
      Turns r { r with ended := some e }

/-- What is true of a session at any time. -/
structure Fits (r : Run) : Prop where
  room : 0 < r.outlet.commands.capacity
  own : ∀ reason ∈ r.outlet.commands.waiting, reason = .userInitiated
  /-- The mailbox is closed when the session is over. -/
  closed : r.outlet.commands.closed = true → r.worker.leave ≠ 0
  listens : r.worker.Running → r.worker.commandsOpen = true
  noted : ∀ e, r.ended = some e → r.worker.result? = some e

theorem Fresh.fits (h : r.Fresh) : r.Fits where
  room := by rw [h.commands_eq]; decide
  own reason hreason := by rw [h.commands_eq] at hreason; nomatch hreason
  closed hclosed := by rw [h.commands_eq] at hclosed; nomatch hclosed
  listens _ := h.commandsOpen_eq
  noted e hended := nomatch h.ended_eq.symm.trans hended

theorem result?_of_step {w w' : Worker} {o : Session.Offer} {effect : Session.Effect}
    (h : w.step o = some (w', effect)) : w.result? = none := by
  cases hphase : w.phase with
  | ended e => simp [Worker.step, hphase] at h
  | _ => rw [Worker.result?, hphase]

theorem Fits.ending? {e : Ending} (h : r.Fits) (hended : r.ended = some e) :
    r.worker.ending? = some e := by
  rw [Worker.ending?, Worker.phase_of_result? (h.noted e hended)]

theorem Turns.session_eq (h : r.Turns r') : r'.worker.session = r.worker.session := by
  cases h with
  | moves _ hstep => exact Worker.session_of_does (Worker.does_step hstep)
  | asked | handed | concludes => rfl

/-- As long as it is attended, a session finds a command of its client or nothing. -/
theorem Fits.next? (h : r.Fits) :
    r.attended.commands.next? =
      if r.outlet.commands.waiting = [] then none else some (some .userInitiated) := by
  have hown := h.own
  unfold attended Mailbox.next?
  cases hwaiting : r.outlet.commands.waiting with
  | nil => rfl
  | cons reason rest =>
    rw [hwaiting] at hown
    rw [hown reason List.mem_cons_self]
    rfl

private theorem commands_applyOutlet (effect : Session.Effect) (out : Outlet) :
    (effect.applyOutlet out).commands.capacity = out.commands.capacity ∧
      (∀ reason ∈ (effect.applyOutlet out).commands.waiting, reason ∈ out.commands.waiting) ∧
      ((effect.applyOutlet out).commands.closed = true →
        out.commands.closed = true ∨ effect = .shut) := by
  cases effect with
  | command => exact ⟨rfl, fun _ ↦ List.mem_of_mem_drop, .inl⟩
  | shut => exact ⟨rfl, fun _ ↦ id, fun _ ↦ .inr rfl⟩
  | _ => exact ⟨rfl, fun _ ↦ id, .inl⟩

theorem Fits.turns (h : r.Fits) (hturns : r.Turns r') : r'.Fits := by
  cases hturns with
  | asked =>
    unfold asked
    rcases r.outlet.commands.post_cases .userInitiated with ⟨-, hsame⟩ | happended
    · rwa [hsame]
    · rw [happended]
      refine ⟨h.room, fun reason hreason ↦ ?_, h.closed, h.listens, h.noted⟩
      rcases List.mem_append.mp hreason with hold | hnew
      · exact h.own reason hold
      · exact List.mem_singleton.mp hnew
  | handed id e =>
    have hsame := Outlet.commands_hand r.outlet id e
    exact ⟨hsame ▸ h.room, hsame ▸ h.own, hsame ▸ h.closed, h.listens, h.noted⟩
  | @moves o w effect hcommand hstep =>
    have hdoes := Worker.does_step hstep
    have hnever : o.command ≠ some none := by
      rw [hcommand, h.next?]
      split <;> nofun
    obtain ⟨hcapacity, hwaiting, hshut⟩ := commands_applyOutlet effect r.attended
    refine ⟨hcapacity ▸ h.room, fun reason hreason ↦ h.own reason (hwaiting reason hreason),
      fun hclosed hzero ↦ ?_, fun hrunning ↦ ?_, fun e hended ↦ ?_⟩
    · -- The move that closes the mailbox is the one that shuts the stream, so the loop is left.
      have hleads := Worker.leads_of_does hdoes
      rcases hshut hclosed with hbefore | rfl
      · exact h.closed hbefore (hleads.eq_zero hzero)
      · exact absurd hzero (by rw [hleads.2]; decide)
    · rw [Worker.commandsOpen_of_does hdoes hnever]
      exact h.listens (Worker.running_of_does hdoes hrunning)
    · nomatch (result?_of_step hstep).symm.trans (h.noted e hended)
  | @concludes e hresult hended =>
    exact ⟨h.room, h.own, h.closed, h.listens, fun e' hended' ↦ hresult.trans hended'⟩

/-! ## A session that is told to close -/

/-- How a session ends that is told to close when it has come this far. -/
inductive Complies (r : Run) : Ending → Prop where
  | obeys : Complies r (.ok ⟨.own, .userInitiated⟩)
  /-- How it ends was settled already. -/
  | settled {e : Ending} (hending : r.worker.ending? = some e) : Complies r e
  /-- The frame that was on its way did not get through, and the connection was given up as lost. -/
  | lost {t : Frame.Transmission} {detail : String} (hphase : r.worker.phase = .sending t) :
      Complies r (.error (.lost detail))

/-- A session that was told to close when it had come so far has got here. -/
inductive Closes (told r : Run) : Prop where
  /-- It still has the command before it, and at most the frame on its way comes first. -/
  | hears (hwaiting : r.outlet.commands.waiting ≠ [])
      (hphase : r.worker.phase = .waiting ∨
        (∃ t, told.worker.phase = .sending t) ∧ ∃ t, r.worker.phase = .sending t)
  | leaves {e : Ending} (hending : r.worker.ending? = some e) (hcomplies : told.Complies e)

theorem Closes.obeys {o : Session.Offer} {w : Worker} {effect : Session.Effect} (hfits : r.Fits)
    (hwaiting : r.outlet.commands.waiting ≠ []) (hphase : r.worker.phase = .waiting)
    (hcommand : o.command = r.attended.commands.next?)
    (hstep : r.worker.step o = some (w, effect)) :
    w.ending? = some (.ok ⟨.own, .userInitiated⟩) := by
  have hheeds : r.worker.Heeds o .userInitiated :=
    ⟨hphase, hfits.listens (Worker.running_of_waiting hphase),
      by rw [hcommand, hfits.next?, if_neg hwaiting]⟩
  obtain ⟨rfl, -⟩ := Prod.mk.inj (Option.some.inj
    ((Worker.step_of_heeds hheeds).symm.trans hstep))
  rfl

theorem Closes.turns (h : told.Closes r) (hfits : r.Fits) (hturns : r.Turns r') :
    told.Closes r' := by
  cases h with
  | @leaves e hending hcomplies =>
    refine .leaves ?_ hcomplies
    cases hturns with
    | moves _ hstep => exact Worker.ending?_of_does (Worker.does_step hstep) hending
    | asked | handed | concludes => exact hending
  | hears hwaiting hphase =>
    cases hturns with
    | asked =>
      refine .hears ?_ hphase
      unfold asked
      rcases r.outlet.commands.post_cases .userInitiated with ⟨-, hsame⟩ | happended
      · rwa [hsame]
      · simp [happended]
    | handed id e => exact .hears (Outlet.commands_hand r.outlet id e ▸ hwaiting) hphase
    | concludes => exact .hears hwaiting hphase
    | @moves o w effect hcommand hstep =>
      rcases hphase with hphase | ⟨hsending, t, hphase⟩
      · exact .leaves (Closes.obeys hfits hwaiting hphase hcommand hstep) .obeys
      obtain ⟨t₀, htold⟩ := hsending
      -- The frame on its way goes on or comes to nothing; a command is not looked at meanwhile.
      cases Worker.does_step hstep with
      | writes => exact .hears hwaiting (.inr ⟨⟨t₀, htold⟩, _, rfl⟩)
      | completes => exact .hears hwaiting (.inl rfl)
      | stalls => exact .leaves rfl (.lost htold)
      | breaks _ hfailed =>
        obtain ⟨text, rfl⟩ := Frame.Transmission.exists_io_of_failed hfailed
        exact .leaves rfl (.lost htold)
      | obeys hphase' | abandoned hphase' | beats hphase' | parts hphase' | bids hphase'
      | parted hphase' | abandons hphase' | shuts hphase' => cases hphase.symm.trans hphase'
      | reads hlistens | skips hlistens | hears hlistens | deafened hlistens
      | forwards hlistens => cases hphase.symm.trans hlistens.phase_eq

end Run

/-! ## Any change -/

namespace Guest

variable {g g' : Guest} {key : Nat} {r told : Run}

/-- The sessions and the connection are left alone. -/
structure Rests (g g' : Guest) : Prop where
  runs_eq : g'.runs = g.runs
  active_eq : g'.active = g.active

/-- What can happen to the sessions of a client. -/
inductive Changes (g : Guest) : Guest → Prop where
  | rests {g' : Guest} (hrests : g.Rests g') : Changes g g'
  | asks (key : Nat) : Changes g (g.askToClose key .userInitiated)
  | hands (key : Nat) (id : SessionId) (e : Event) : Changes g (g.hand key id e).2
  | steps {g' : Guest} {key : Nat} {now : Instant} {e e' : Endpoint}
      (hstep : g.step key now e = some (g', e')) : Changes g g'
  | begins (id : SessionId) (link : Link) (stream : Nat) (now : Instant) :
      Changes g (g.begin id link stream now)

/-- The client is connected by a session that lives, and its sessions are as they should be. -/
structure Tidy (g : Guest) : Prop where
  connected : ∀ active, g.active = some active → g.Lives active.run active.session
  fits : ∀ r ∈ g.runs, r.Fits

theorem Tidy.active_eq (h : g.Tidy) (hsole : g.Sole) (hr : g.runs[key]? = some r)
    (hresult : r.worker.result? = none) : g.active = some ⟨r.worker.session, key⟩ := by
  refine hsole key r.worker.session (lives_of_run hr ?_)
  cases hended : r.ended with
  | none => rfl
  | some e => nomatch hresult.symm.trans ((h.fits r (List.mem_of_getElem? hr)).noted e hended)

private theorem Tidy.outletOf_eq (h : g.Tidy) (hsole : g.Sole) (hr : g.runs[key]? = some r)
    (hresult : r.worker.result? = none) : g.outletOf key r = r.attended := by
  rw [outletOf, Run.attended, h.active_eq hsole hr hresult]
  simp

/-- **A change is for at most one session.** -/
theorem Changes.runs_cases (h : g.Changes g') (htidy : g.Tidy) (hsole : g.Sole) :
    g'.runs = g.runs ∨
    (∃ key r r', g.runs[key]? = some r ∧ r.Turns r' ∧ g'.runs = g.runs.set key r') ∨
    ∃ r, r.Fresh ∧ g'.runs = g.runs ++ [r] := by
  cases h with
  | rests hrests => exact .inl hrests.runs_eq
  | asks key =>
    unfold askToClose
    split
    · exact .inl rfl
    · exact .inr (.inl ⟨key, _, _, ‹_›, .asked, rfl⟩)
  | hands key id e =>
    unfold hand
    split
    · exact .inl rfl
    · exact .inr (.inl ⟨key, _, _, ‹_›, .handed id e, rfl⟩)
  | @steps _ key now e e' hstep =>
    obtain ⟨r, hr, hsteps⟩ := steps_of_step hstep
    cases hsteps with
    | concludes hresult hended => exact .inr (.inl ⟨key, r, _, hr, .concludes hresult hended, rfl⟩)
    | @moves w effect hresult hmove =>
      rw [htidy.outletOf_eq hsole hr hresult] at hmove ⊢
      refine .inr (.inl ⟨key, r, _, hr, .moves rfl hmove, ?_⟩)
      rw [setRun, (note_same g effect).1]
  | begins id link stream now => exact .inr (.inr ⟨_, ⟨rfl, rfl, rfl, rfl⟩, rfl⟩)

/-- For the connection, a change leaves everything as it is, or a session begins, or the only one
ends. -/
theorem Changes.connection_cases (h : g.Changes g') (hsole : g.Sole) :
    g.Keeps g' ∨ (g.Wanes g' ∧ g'.active = none) ∨ ∃ id, g.Begins g' id := by
  cases h with
  | rests hrests => exact .inl ⟨by rw [record, record, hrests.runs_eq], hrests.active_eq⟩
  | asks key => exact .inl (g.keeps_askToClose key _)
  | hands key id e => exact .inl (g.keeps_hand key id e)
  | begins id link stream now => exact .inr (.inr ⟨id, g.begins_begin id link stream now⟩)
  | steps hstep =>
    obtain ⟨r, hr, hsteps⟩ := steps_of_step hstep
    cases hsteps with
    | moves _ hmove => exact .inl (keeps_note_setRun _ hr hmove)
    | concludes _ hended =>
      have hactive := hsole _ _ (lives_of_run hr hended)
      refine .inr (.inl ⟨wanes_conclude hr hended _, ?_⟩)
      simp [conclude, setRun, hactive]

theorem Tidy.changes (h : g.Tidy) (hsole : g.Sole) (hchanges : g.Changes g') : g'.Tidy where
  connected active hactive := by
    rcases hchanges.connection_cases hsole with hkeeps | ⟨-, hnone⟩ | ⟨id, hbegins⟩
    · rw [Lives, hkeeps.record_eq]
      exact h.connected active (hkeeps.active_eq ▸ hactive)
    · nomatch hnone.symm.trans hactive
    · obtain rfl := Option.some.inj (hbegins.active_eq.symm.trans hactive)
      rw [Lives, hbegins.record_eq, List.getElem?_concat_length]
  fits r' hr' := by
    rcases hchanges.runs_cases h hsole with hsame | ⟨key, r, r₁, hr, hturns, hset⟩ |
      ⟨r, hfresh, happend⟩
    · exact h.fits r' (hsame ▸ hr')
    · rcases List.mem_or_eq_of_mem_set (hset ▸ hr') with hold | rfl
      · exact h.fits r' hold
      · exact (h.fits r (List.mem_of_getElem? hr)).turns hturns
    · rcases List.mem_append.mp (happend ▸ hr') with hold | hnew
      · exact h.fits r' hold
      · exact List.mem_singleton.mp hnew ▸ hfresh.fits

theorem tidy_new (own : Hello) (prover : Prover) (inject : Injector) (tuning : Tuning) :
    (new own prover inject tuning).Tidy where
  connected _ h := nomatch h
  fits _ h := nomatch h

theorem Changes.exists_run (h : g.Changes g') (htidy : g.Tidy) (hsole : g.Sole)
    (hr : g.runs[key]? = some r) :
    ∃ r', g'.runs[key]? = some r' ∧ (r' = r ∨ r.Turns r') := by
  obtain ⟨hlt, -⟩ := List.getElem?_eq_some_iff.mp hr
  rcases h.runs_cases htidy hsole with hsame | ⟨moved, r₀, r', hr₀, hturns, hset⟩ |
    ⟨new, -, happend⟩
  · exact ⟨r, hsame ▸ hr, .inl rfl⟩
  · by_cases hsame : moved = key
    · subst hsame
      obtain rfl := Option.some.inj (hr₀.symm.trans hr)
      exact ⟨r', by rw [hset, List.getElem?_set_self hlt], .inr hturns⟩
    · exact ⟨r, by rw [hset, List.getElem?_set_ne hsame, hr], .inl rfl⟩
  · exact ⟨r, by rw [happend, List.getElem?_append_left hlt, hr], .inl rfl⟩

/-- Everybody at this client was told to close when the sessions were these. -/
def Dismisses (before g : Guest) : Prop :=
  ∀ (key : Nat) (told : Run), before.runs[key]? = some told →
    ∃ r, g.runs[key]? = some r ∧ told.Closes r

theorem Dismisses.changes {before : Guest} (h : before.Dismisses g) (htidy : g.Tidy)
    (hsole : g.Sole) (hchanges : g.Changes g') : before.Dismisses g' := by
  intro key told htold
  obtain ⟨r, hr, hcloses⟩ := h key told htold
  obtain ⟨r', hr', rfl | hturns⟩ := hchanges.exists_run htidy hsole hr
  · exact ⟨r', hr', hcloses⟩
  · exact ⟨r', hr', hcloses.turns (htidy.fits _ (List.mem_of_getElem? hr)) hturns⟩

end Guest

/-! ## Attempts -/

/-- What a move of an attempt is for the sessions and for the stream that it holds. -/
inductive Attempt.Tends (a : Attempt) (g : Guest) (e : Endpoint) :
    Guest → Attempt → Endpoint → Prop where
  /-- It holds none yet. -/
  | prepares {g' : Guest} {a' : Attempt} (hstream : a.stream? = none)
      (hrests : g.Rests g' ∨ ∃ key, g' = g.askToClose key .userInitiated) : Tends a g e g' a' e
  | goesOn {a' : Attempt} {stream : Nat} (hstream : a.stream? = some stream)
      (hstream' : a'.stream? = some stream) (effect : Handshake.Effect) :
      Tends a g e g a' (effect.apply e)
  | fails {g' : Guest} {a' : Attempt} (hstream' : a'.stream? = none) (hrests : g.Rests g') :
      Tends a g e g' a' e.drop
  /-- The session takes over the stream. -/
  | begins {a' : Attempt} {stream : Nat} (hstream : a.stream? = some stream)
      (hstream' : a'.stream? = none) (id : SessionId) (link : Link) (now : Instant) :
      Tends a g e (g.begin id link stream now) a' e

namespace Attempt

variable {a a' : Attempt} {g g' : Guest} {now : Instant} {answer : DialReply} {e e' : Endpoint}

theorem tends_of_step (h : a.step g now answer e = some (g', a', e')) : a.Tends g e g' a' e' := by
  unfold step at h
  split at h
  · nomatch h
  · rename_i hphase
    have hstream : a.stream? = none := by rw [stream?, hphase]
    split at h
    · obtain ⟨rfl, rfl, rfl⟩ := by simpa only [Option.some.injEq, Prod.mk.injEq] using h
      exact .prepares hstream (.inr ⟨_, rfl⟩)
    · obtain ⟨rfl, rfl, rfl⟩ := by simpa only [Option.some.injEq, Prod.mk.injEq] using h
      exact .prepares hstream (.inl ⟨rfl, rfl⟩)
  · rename_i key hphase
    have hstream : a.stream? = none := by rw [stream?, hphase]
    obtain ⟨ending, -, heq⟩ := Option.map_eq_some_iff.mp h
    obtain ⟨rfl, rfl, rfl⟩ := by simpa only [Prod.mk.injEq] using heq
    exact .prepares hstream (.inl ⟨rfl, rfl⟩)
  · rename_i deadline hphase
    have hstream : a.stream? = none := by rw [stream?, hphase]
    split at h
    · obtain ⟨rfl, rfl, rfl⟩ := by simpa only [Option.some.injEq, Prod.mk.injEq] using h
      exact .prepares hstream (.inl ⟨rfl, rfl⟩)
    · obtain ⟨rfl, rfl, rfl⟩ := by simpa only [Option.some.injEq, Prod.mk.injEq] using h
      exact .prepares hstream (.inl ⟨rfl, rfl⟩)
    · split at h
      · obtain ⟨rfl, rfl, rfl⟩ := by simpa only [Option.some.injEq, Prod.mk.injEq] using h
        exact .prepares hstream (.inl ⟨rfl, rfl⟩)
      · nomatch h
  -- Now there is a stream, and it stays with the attempt until a session has it.
  · rename_i c stream hphase
    have hstream : a.stream? = some stream := by rw [stream?, hphase]
    split at h
    · obtain ⟨rfl, rfl, rfl⟩ := by simpa only [Option.some.injEq, Prod.mk.injEq] using h
      exact .begins hstream rfl _ _ _
    · obtain ⟨rfl, rfl, rfl⟩ := by simpa only [Option.some.injEq, Prod.mk.injEq] using h
      exact .fails rfl ⟨rfl, rfl⟩
    · obtain ⟨⟨c', effect, e₁⟩, hmove, heq⟩ := Option.map_eq_some_iff.mp h
      obtain ⟨⟨c₁, effect₁⟩, -, hc⟩ := Option.map_eq_some_iff.mp hmove
      obtain ⟨rfl, rfl, rfl⟩ := by simpa only [Prod.mk.injEq] using hc
      obtain ⟨rfl, rfl, rfl⟩ := by simpa only [Prod.mk.injEq] using heq
      exact .goesOn hstream rfl effect₁

theorem Tends.changes (h : a.Tends g e g' a' e') : g.Changes g' := by
  cases h with
  | goesOn => exact .rests ⟨rfl, rfl⟩
  | fails _ hrests => exact .rests hrests
  | begins => exact .begins _ _ _ _
  | prepares _ hrests =>
    rcases hrests with hrests | ⟨key, rfl⟩
    · exact .rests hrests
    · exact .asks key

end Attempt

/-! ## A client that is called -/

namespace Calls

variable {c : Calls}

theorem changes_act (c : Calls) (x : Act) : c.guest.Changes (c.act x).guest := by
  have hrests : c.guest.Changes c.guest := .rests ⟨rfl, rfl⟩
  cases x with
  | connect | giveUp => exact hrests
  | hand key id e => exact .hands key id e
  | attempt i now answer e =>
    simp only [act]
    split
    · rename_i guest a e' hmove
      obtain ⟨b, -, hstep⟩ := Option.bind_eq_some_iff.mp hmove
      exact (Attempt.tends_of_step hstep).changes
    · exact hrests
  | session key now e =>
    simp only [act]
    cases hstep : c.guest.step key now e with
    | none => exact hrests
    | some moved => exact .steps hstep
  | disconnect id =>
    simp only [act]
    split
    · rename_i key guest hdisconnect
      unfold Guest.disconnect at hdisconnect
      split at hdisconnect
      · split at hdisconnect
        · obtain ⟨-, rfl⟩ := Prod.mk.inj (Except.ok.inj hdisconnect)
          exact .asks _
        · cases hdisconnect
      · cases hdisconnect
    · exact hrests

end Calls

end DeskLink.Client
