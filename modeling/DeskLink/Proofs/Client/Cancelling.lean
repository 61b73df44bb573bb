import DeskLink.Proofs.Client.Keeping

/-!
# What cancelling leaves behind

The signal that cancels may come at any moment, and whoever waits for the keeper's attempt, or for
the end of a session, is dropped there and then. Nothing is left behind all the same, for two
reasons.

A stream is always somebody's: the attempt of the keeper holds it, then a session uses it, and both
give it up when they are done with it (`Sound.covered`). The keeper drops a stream only together
with its attempt.

And a session is published in the same move in which it begins. So the keeper, when it is cancelled,
finds every session that it has begun, tells it to close (`Turns.dismisses`), and waits for it.

A session does not look at what it is told while it is sending. If the frame does not get through,
its end is a lost connection and not the one that it was told of (`cancelled_while_stuck`).
-/

namespace DeskLink.Client

open Session (Worker Ending)

/-! ## Streams in use -/

private theorem Run.shut_of_step {w w' : Worker} {o : Session.Offer} {effect : Session.Effect}
    (h : w.step o = some (w', effect)) (hover : w'.result? ≠ none) : effect = .shut := by
  have hbefore : w.leave ≠ 3 := by
    have hresult := result?_of_step h
    cases hphase : w.phase <;> simp_all [Worker.result?, Worker.leave]
  obtain ⟨e, hended⟩ := Option.ne_none_iff_exists'.mp hover
  have hafter := Worker.leave_of_result? hended
  have hleads := Worker.leads_of_does (Worker.does_step h)
  cases effect with
  | shut => rfl
  | _ => simp only [Session.Effect.Leads] at hleads; omega

namespace Guest

variable {g g' : Guest} {key stream : Nat} {r r' : Run} {now : Instant} {e e' : Endpoint}

/-- A session that is not over uses this stream. -/
def Uses (g : Guest) (stream : Nat) : Prop :=
  ∃ r ∈ g.runs, r.stream = stream ∧ r.worker.result? = none

theorem Uses.of_runs_eq (h : g.Uses stream) (hruns : g'.runs = g.runs) : g'.Uses stream := by
  rwa [Uses, hruns]

/-- Only the session that has changed may have stopped using its stream. -/
theorem Uses.set (h : g.Uses stream) (hr : g.runs[key]? = some r)
    (hset : g'.runs = g.runs.set key r') (hsame : r'.stream = r.stream) :
    g'.Uses stream ∨ r.stream = stream ∧ r.worker.result? = none ∧ r'.worker.result? ≠ none := by
  obtain ⟨user, huser, hstream, hresult⟩ := h
  obtain ⟨i, hi⟩ := List.getElem?_of_mem huser
  obtain ⟨hlt, -⟩ := List.getElem?_eq_some_iff.mp hi
  rw [Uses, hset]
  by_cases hkey : key = i
  · subst hkey
    obtain rfl := Option.some.inj (hr.symm.trans hi)
    by_cases hover : r'.worker.result? = none
    · exact .inl ⟨r', List.mem_of_getElem? (List.getElem?_set_self hlt), hsame.trans hstream, hover⟩
    · exact .inr ⟨hstream, hresult, hover⟩
  · exact .inl ⟨user, List.mem_of_getElem? ((List.getElem?_set_ne hkey).trans hi), hstream, hresult⟩

/-- Whatever else changes about a session, it uses its stream as long as its worker is at work. -/
theorem Uses.set_of_worker_eq (h : g.Uses stream) (hr : g.runs[key]? = some r)
    (hset : g'.runs = g.runs.set key r') (hsame : r'.stream = r.stream)
    (hworker : r'.worker = r.worker) : g'.Uses stream := by
  rcases h.set hr hset hsame with huses | ⟨-, hresult, hover⟩
  · exact huses
  · exact absurd (hworker ▸ hresult) hover

theorem Uses.askToClose (h : g.Uses stream) (key : Nat) (reason : CloseReason) :
    (g.askToClose key reason).Uses stream := by
  unfold Guest.askToClose
  split
  · exact h
  · rename_i r hr
    exact h.set_of_worker_eq hr rfl rfl rfl

theorem Uses.hand (h : g.Uses stream) (key : Nat) (id : SessionId) (event : Event) :
    (g.hand key id event).2.Uses stream := by
  unfold Guest.hand
  split
  · exact h
  · rename_i r hr
    exact h.set_of_worker_eq hr rfl rfl rfl

theorem Uses.begin (h : g.Uses stream) (id : SessionId) (link : Link) (other : Nat)
    (now : Instant) : (g.begin id link other now).Uses stream := by
  obtain ⟨r, hr, huses⟩ := h
  exact ⟨r, List.mem_append_left _ hr, huses⟩

private theorem uses_begin (g : Guest) (id : SessionId) (link : Link) (stream : Nat)
    (now : Instant) : (g.begin id link stream now).Uses stream :=
  ⟨_, List.mem_append_right _ List.mem_cons_self, rfl, rfl⟩

theorem Uses.step (h : g.Uses stream) (hr : g.runs[key]? = some r)
    (hstep : g.step key now e = some (g', e')) :
    g'.Uses stream ∨ r.stream = stream ∧ e'.Closed := by
  obtain ⟨r₁, hr₁, hsteps⟩ := steps_of_step hstep
  obtain rfl := Option.some.inj (hr.symm.trans hr₁)
  cases hsteps with
  | concludes => exact .inl (h.set_of_worker_eq hr rfl rfl rfl)
  | @moves w effect hresult hmove =>
    have hset : ∀ r', ((g.note effect).setRun key r').runs = g.runs.set key r' := fun r' ↦ by
      rw [setRun, (note_same g effect).1]
    refine Or.imp_right (fun hgone ↦ ?_) (h.set hr (hset _) rfl)
    obtain rfl := Run.shut_of_step hmove hgone.2.2
    exact ⟨hgone.1, e.closed_drop⟩

private theorem closed_step (hstep : g.step key now e = some (g', e')) (h : e.Closed) :
    e'.Closed := by
  obtain ⟨r, -, hsteps⟩ := steps_of_step hstep
  cases hsteps with
  | concludes => exact h
  | moves => exact h.applySession _

end Guest

/-! ## What is always so -/

namespace Keeper

variable {k k' : Keeper} {g g' : Guest} {cancelled : Bool} {e e' : Endpoint} {stream : Nat}

/-- What the keeper has seen to. -/
def Cleared (k : Keeper) (g : Guest) : Prop :=
  match k.call with
  | .nothing | .waiting _ => True
  | .attempt a => a.Cleared g
  | .closing key => ∀ other id, g.Lives other id → other = key

/-- What is true of a keeper at any time, whatever happens to the client. -/
structure Steady (k : Keeper) : Prop where
  /-- An attempt is made only when it was asked for, or dropped at once. -/
  attempting : ∀ a, k.call = .attempt a → a.result? = none →
    k.control.phase = .connecting ∨ k.control.result? = some (.ok .cancelled)
  closing : ∀ key, k.call = .closing key → k.control.result? = some (.ok .cancelled)

private theorem exists_attempt_of_stream? (h : k.stream? = some stream) :
    ∃ a, k.call = .attempt a ∧ a.stream? = some stream ∧ a.result? = none := by
  unfold stream? at h
  split at h
  · rename_i a hcall
    refine ⟨a, hcall, h, ?_⟩
    unfold Attempt.stream? at h
    unfold Attempt.result?
    split at h <;> simp_all
  · nomatch h

theorem Steady.turns (h : k.Steady) (hturns : k.Turns g cancelled e g' k' e') : k'.Steady := by
  obtain ⟨hattempting, hclosing⟩ := h
  cases hturns with
  | steers _ hconnected hcontrol hcourse =>
    cases hcourse with
    | cancels => exact ⟨fun _ _ _ ↦ .inr rfl, fun _ _ ↦ rfl⟩
    | connects => exact ⟨fun _ _ _ ↦ .inl rfl, fun _ hcall ↦ nomatch hcall⟩
    | watches => exact ⟨fun _ hcall ↦ (nomatch hcall), fun _ hcall ↦ nomatch hcall⟩
    | goesOn hmet =>
      refine ⟨fun a hcall hopen ↦ ?_, fun key hcall ↦ ?_⟩
      · rcases hattempting a hcall hopen with hconnecting | hover
        · -- It goes on from connecting only when its attempt is over.
          exact absurd ((hconnected a hcall).trans hopen) (hmet hconnecting)
        · nomatch hcontrol.symm.trans hover
      · nomatch hcontrol.symm.trans (hclosing key hcall)
  | tries hcall hopen =>
    exact ⟨fun _ _ _ ↦ hattempting _ hcall hopen, fun _ hcall' ↦ nomatch hcall'⟩
  | asks hcontrol => exact ⟨fun _ hcall ↦ (nomatch hcall), fun _ _ ↦ hcontrol⟩
  | retires | stops => exact ⟨fun _ hcall ↦ (nomatch hcall), fun _ hcall ↦ nomatch hcall⟩
  | leaves => exact ⟨hattempting, hclosing⟩

/-- While the keeper holds a stream, it waits for its attempt or is cancelled. -/
theorem Steady.of_stream? (h : k.Steady) (hstream : k.stream? = some stream) :
    k.control.phase = .connecting ∨ k.control.result? = some (.ok .cancelled) := by
  obtain ⟨a, hcall, -, hopen⟩ := exists_attempt_of_stream? hstream
  exact h.attempting a hcall hopen

private theorem closed_dropStream (hstream : k.stream? = some stream) (e : Endpoint) :
    (k.dropStream e).Closed := by
  rw [dropStream, hstream]
  exact e.closed_drop

/-- **A keeper lets go of a stream only by handing it to a session or by giving it up.** -/
theorem Turns.covers (hturns : k.Turns g cancelled e g' k' e') (h : k.Steady)
    (hstream : k.stream? = some stream) :
    k'.stream? = some stream ∨ g'.Uses stream ∨ e'.Closed := by
  cases hturns with
  | steers _ _ hcontrol hcourse =>
    rcases h.of_stream? hstream with hconnecting | hover
    · cases hcourse with
      | cancels | goesOn => exact .inl hstream
      | connects hphase | watches hphase => exact absurd hconnecting hphase
    · nomatch hcontrol.symm.trans hover
  | @tries a a' _ _ hcall _ _ _ htends =>
    have hheld : a.stream? = some stream := by rw [← hstream, stream?, hcall]
    cases htends with
    | prepares hnone => nomatch hheld.symm.trans hnone
    | goesOn hsame hsame' =>
      exact .inl (hsame'.trans (hsame.symm.trans hheld))
    | fails => exact .inr (.inr e.closed_drop)
    | begins hsame =>
      obtain rfl := Option.some.inj (hsame.symm.trans hheld)
      exact .inr (.inl (g.uses_begin ..))
  | asks | retires => exact .inr (.inr (closed_dropStream hstream e))
  | stops hcontrol hresult =>
    rcases h.of_stream? hstream with hconnecting | hover
    · rw [Reconnection.result?, hconnecting] at hcontrol
      nomatch hcontrol
    · exact absurd (Option.some.inj (hcontrol.symm.trans hover)) hresult
  | leaves => exact .inl hstream

private theorem Turns.uses (hturns : k.Turns g cancelled e g' k' e') (h : g.Uses stream) :
    g'.Uses stream := by
  cases hturns with
  | steers | retires | stops | leaves => exact h
  | asks => exact h.askToClose _ _
  | tries _ _ _ _ htends =>
    cases htends with
    | goesOn => exact h
    | fails _ hrests => exact h.of_runs_eq hrests.runs_eq
    | begins => exact h.begin ..
    | prepares _ hrests =>
      rcases hrests with hrests | ⟨key, rfl⟩
      · exact h.of_runs_eq hrests.runs_eq
      · exact h.askToClose _ _

theorem Turns.closed (hturns : k.Turns g cancelled e g' k' e') (h : e.Closed) : e'.Closed := by
  cases hturns with
  | steers | stops | leaves => exact h
  | asks | retires =>
    unfold dropStream
    split
    · exact e.closed_drop
    · exact h
  | tries _ _ _ _ htends =>
    cases htends with
    | prepares | begins => exact h
    | goesOn => exact h.applyHandshake _
    | fails => exact e.closed_drop

theorem Cleared.wanes (h : k.Cleared g) (hwanes : g.Wanes g') : k.Cleared g' := by
  unfold Cleared at h ⊢
  cases hcall : k.call with
  | nothing | waiting => trivial
  | attempt a =>
    simp only [hcall] at h ⊢
    exact h.wanes hwanes
  | closing key =>
    simp only [hcall] at h ⊢
    exact fun other id hlives ↦ h other id (Guest.lives_of_wanes hwanes hlives)

/-- The client of a keeper that nobody else calls has one session at most. -/
theorem Cleared.turns (h : k.Cleared g) (hsole : g.Sole)
    (hturns : k.Turns g cancelled e g' k' e') : g'.Sole ∧ k'.Cleared g' := by
  cases hturns with
  | steers _ _ _ hcourse =>
    refine ⟨hsole, ?_⟩
    cases hcourse with
    | cancels | goesOn => exact h
    | connects | watches => trivial
  | retires | stops => exact ⟨hsole, trivial⟩
  | leaves => exact ⟨hsole, h⟩
  | @asks active _ hactive =>
    have hkeeps := g.keeps_askToClose active.run .userInitiated
    refine ⟨hsole.keeps hkeeps, fun other id hlives ↦ ?_⟩
    have hsame := (hsole other id (Guest.lives_of_keeps hkeeps hlives)).symm.trans hactive
    exact congrArg Active.run (Option.some.inj hsame)
  | tries hcall _ _ hcourse =>
    rw [Cleared, hcall] at h
    rcases hcourse.cleared h hsole with ⟨hkeeps, hcleared⟩ | ⟨hpast, hover, id, hbegins⟩
    · exact ⟨hsole.keeps hkeeps, hcleared.wanes (.keeps hkeeps)⟩
    · exact ⟨(Guest.sole_iff_of_begins hbegins).mpr (h.idle hpast),
        Attempt.cleared_of_not_underWay hover⟩

/-- **A keeper that is cancelled leaves no session behind**, and holds no stream. -/
theorem Turns.gone (hturns : k.Turns g cancelled e g' k' e') (h : k.Cleared g) (hsole : g.Sole)
    (hopen : k.result = none) (hresult : k'.result = some (.ok .cancelled)) :
    g'.Idle ∧ k'.stream? = none := by
  cases hturns with
  | steers _ _ _ hcourse => cases hcourse <;> nomatch hopen.symm.trans hresult
  | tries | asks => nomatch hopen.symm.trans hresult
  | stops _ hne => exact absurd (Option.some.inj hresult) hne
  | retires _ hactive =>
    refine ⟨fun key id hlives ↦ ?_, rfl⟩
    nomatch (hsole key id hlives).symm.trans hactive
  | @leaves key ending _ hcall hended =>
    rw [Cleared, hcall] at h
    refine ⟨fun other id hlives ↦ ?_, by rw [stream?, hcall]⟩
    obtain rfl := h other id hlives
    nomatch hlives.ended?.symm.trans hended

theorem Turns.told (hturns : k.Turns g cancelled e g' k' e')
    (h : k'.control.result? = some (.ok .cancelled)) :
    k.control.result? = some (.ok .cancelled) ∨ cancelled = true := by
  cases hturns with
  | steers hcancelled _ _ hcourse =>
    cases hcourse with
    | cancels hnow => exact .inr (hcancelled ▸ hnow)
    | connects | watches => nomatch h
    | goesOn _ hresult => exact absurd h hresult
  | tries | asks | retires | stops | leaves => exact .inl h

end Keeper

namespace Upkeep

variable {u u' : Upkeep}

/-- What is always true of a client that is kept connected. -/
structure Sound (u : Upkeep) : Prop where
  sole : u.guest.Sole
  tidy : u.guest.Tidy
  steady : u.keeper.Steady
  cleared : u.keeper.Cleared u.guest
  told : u.keeper.control.result? = some (.ok .cancelled) → u.cancelled = true
  gone : u.keeper.result = some (.ok .cancelled) → u.guest.Idle ∧ u.keeper.stream? = none
  /-- Every stream has somebody who uses it, or has been given up. -/
  covered : ∀ stream ∈ u.opened, u.keeper.stream? = some stream ∨ u.guest.Uses stream ∨
    (u.streams stream).Closed

/-- As long as no session begins, nothing changes but who uses the streams. -/
theorem Sound.wanes (hs : u.Sound) {g : Guest} {streams : Nat → Endpoint} (htidy : g.Tidy)
    (hwanes : u.guest.Wanes g)
    (hcovered : ∀ stream ∈ u.opened, u.keeper.stream? = some stream ∨ g.Uses stream ∨
      (streams stream).Closed) : Sound { u with guest := g, streams } where
  sole := hs.sole.wanes hwanes
  tidy := htidy
  steady := hs.steady
  cleared := hs.cleared.wanes hwanes
  told := hs.told
  gone hresult := (hs.gone hresult).imp_left (·.wanes hwanes)
  covered := hcovered

theorem Sound.turns (hs : u.Sound) (hturns : u.Turns u') : u'.Sound := by
  have htidy := hs.tidy.changes hs.sole hturns.changes
  cases hturns with
  | signals => exact { hs with told _ := rfl }
  | meets stream e =>
    refine { hs with covered other hother := ?_ }
    rcases hs.covered other hother with hheld | huses | hclosed
    · exact .inl hheld
    · exact .inr (.inl huses)
    · refine .inr (.inr ?_)
      dsimp only
      split
      · exact hclosed.later e
      · exact hclosed
  | hands key id e =>
    refine hs.wanes htidy (.keeps (u.guest.keeps_hand key id e)) fun other hother ↦ ?_
    rcases hs.covered other hother with hheld | huses | hclosed
    · exact .inl hheld
    · exact .inr (.inl (huses.hand key id e))
    · exact .inr (.inr hclosed)
  | @runs key r now guest e hr hstep =>
    refine hs.wanes htidy (Guest.wanes_of_step hstep) fun other hother ↦ ?_
    rcases hs.covered other hother with hheld | huses | hclosed
    · exact .inl hheld
    · rcases huses.step hr hstep with huses | ⟨rfl, hclosed⟩
      · exact .inr (.inl huses)
      · exact .inr (.inr (by rwa [if_pos rfl]))
    · refine .inr (.inr ?_)
      split
      · subst_vars
        exact Guest.closed_step hstep hclosed
      · exact hclosed
  | @keeps sees guest keeper e hopen hcourse =>
    obtain ⟨hsole, hcleared⟩ := hs.cleared.turns hs.sole hcourse
    refine ⟨hsole, htidy, hs.steady.turns hcourse, hcleared, fun hcancelled ↦ ?_,
      hcourse.gone hs.cleared hs.sole hopen, fun other hother ↦ ?_⟩
    · rcases hcourse.told hcancelled with hbefore | hsignal
      · exact hs.told hbefore
      · exact (Bool.and_eq_true_iff.mp hsignal).1
    dsimp only
    -- A stream that the keeper has just opened is held by it.
    rcases List.mem_append.mp hother with hold | hnew
    · rcases hs.covered other hold with hheld | huses | hclosed
      · rw [if_pos hheld]
        exact hcourse.covers hs.steady hheld
      · exact .inr (.inl (hcourse.uses huses))
      · refine .inr (.inr ?_)
        split
        · rename_i hheld
          refine hcourse.closed ?_
          rwa [held, hheld]
        · exact hclosed
    · exact .inl (Option.mem_toList.mp hnew)

theorem Sound.act (hs : u.Sound) (x : Act) : (u.act x).Sound := by
  rcases u.act_cases x with hsame | hturns
  · rwa [hsame]
  · exact hs.turns hturns

theorem Sound.perform (hs : u.Sound) (acts : List Act) : (u.perform acts).Sound := by
  induction acts generalizing u with
  | nil => exact hs
  | cons x acts ih => exact ih (hs.act x)

theorem sound_begin {g : Guest} (hsole : g.Sole) (htidy : g.Tidy) (address : String)
    (policy : Backoff) (streams : Nat → Endpoint) : (begin g address policy streams).Sound where
  sole := hsole
  tidy := htidy
  steady := ⟨fun _ hcall ↦ (nomatch hcall), fun _ hcall ↦ nomatch hcall⟩
  cleared := trivial
  told h := nomatch h
  gone h := nomatch h
  covered stream hstream := by
    obtain ⟨r, hr, rfl⟩ := List.mem_map.mp hstream
    obtain ⟨hr, hresult⟩ := List.mem_filter.mp hr
    exact .inr (.inl ⟨r, hr, rfl, Option.isNone_iff_eq_none.mp hresult⟩)

/-! ## From the signal to the end -/

namespace Act

/-- So many moves of the keeper. It sees the signal if it was given, and is connected if it asks. -/
def keeps (n : Nat) : List Act := List.replicate n (.keeper 0 true 0 (.connected 0))

/-- A frame with this message is there to be read, and the keeper makes moves. -/
def hears (seq : UInt32) (m : Message) (n : Nat) : List Act :=
  .peer 0 ⟨⟨1024, (((Link.new 1 1024).frameOf seq m).map (·.rest)).toOption.getD [], false⟩,
    .new 1024⟩ :: keeps n

/-- The keeper connects the client, and the session begins. -/
def connecting (id : SessionId) : List Act :=
  keeps 6 ++ hears 1 (.hello ⟨⟨1, 0⟩, ⟨⟨List.replicate 16 5, rfl⟩, "desk", 0⟩⟩) 3 ++
    hears 2 (.auth (.challenge .zero)) 7 ++ hears 3 (.authResult ⟨true, some id⟩) 5

end Act

end Upkeep

end DeskLink.Client
