import DeskLink.Proofs.Heartbeat.Moves
import DeskLink.Proofs.Session.Leaving

/-!
# A session does not outlive its deadline

Acknowledgements of heartbeats are what a session lives on: at twice the interval after the last one
it is gone, whatever the other side does instead.

Time passes only while the session can do nothing, so it is enough that at its deadline a session
can always do something. If it waits, then the clock is due; and if it sends, then the send is given
up unless the stream takes more of it, which takes no time. Floods of frames do not matter, since
what is due comes before what has arrived.

When an acknowledgement came and which heartbeats there were is recorded apart from the monitor of
the session, from what its moves take up and have due (`Notice`). That the monitor has the same in
its books is a part of the invariant `InTime`.
-/

namespace DeskLink.Session

namespace Worker

/-! ## What a move notices -/

/-- What a move has to do with heartbeats. -/
inductive Notice where
  /-- A heartbeat with this token was due. -/
  | issued (token : Nat)
  /-- This message was taken up. -/
  | took (m : Message)

/-- The heartbeat that is due. -/
def due? (w : Worker) (now : Instant) : Option Notice :=
  match (w.monitor.poll now).1 with
  | .beat token => some (.issued token)
  | .nothing | .stale _ => none

/-- The message that comes in. -/
def incoming? (w : Worker) (read : ReadReply) : Option Notice :=
  match (w.link.receive read).1 with
  | .frame (some m) => some (.took m)
  | _ => none

/-- What a worker notices of what its surroundings offer: when there is no command, what is due,
and when nothing is due, the message that comes in. -/
def notice? (w : Worker) (o : Offer) : Option Notice :=
  match w.phase with
  | .waiting =>
    if w.commandsOpen ∧ o.command.isSome then none
    else if w.monitor.nextWakeup ≤ o.now then w.due? o.now
    else w.incoming? o.read
  | _ => none

/-- What becomes of the monitor with what is noticed. -/
inductive Notes (monitor : Heartbeat.Monitor) (now : Instant) :
    Option Notice → Heartbeat.Monitor → Prop where
  | nothing : Notes monitor now none monitor
  | issued {token : Nat} {monitor' : Heartbeat.Monitor}
      (hpoll : monitor.poll now = (.beat token, monitor')) :
      Notes monitor now (some (.issued token)) monitor'
  | acked {token : UInt64} : Notes monitor now (some (.took (.heartbeatAck token)))
      (monitor.onAck token.toNat now).2
  | took {m : Message} (hm : ∀ token, m ≠ .heartbeatAck token) :
      Notes monitor now (some (.took m)) monitor

variable {w w' : Worker} {o : Offer} {effect : Effect}

theorem monitor_send (w : Worker) (m : Message) : (w.send m).monitor = w.monitor := by
  have hsends := w.sends m
  generalize w.send m = w' at hsends ⊢
  cases hsends <;> rfl

private theorem notes_beat (w : Worker) (now : Instant) :
    Notes w.monitor now (w.due? now) (w.beat now).monitor := by
  have hpolls := w.monitor.polls now
  unfold beat due?
  cases hpoll : w.monitor.poll now with
  | mk due monitor =>
    rw [hpoll] at hpolls
    cases hpolls with
    | beats =>
      simp only [monitor_send]
      exact .issued hpoll
    | stale | waits => exact .nothing

private theorem notes_handle (w : Worker) (o : Offer) (m : Message) :
    Notes w.monitor o.now (some (.took m)) (w.handle o m).1.monitor := by
  cases m with
  | heartbeatAck token => exact .acked
  | heartbeat token =>
    rw [handle, monitor_send]
    exact .took nofun
  | input _ | close _ | report _ | hello _ | auth _ | authResult _ => exact .took nofun

private theorem notes_listen (h : w.listen o = some (w', effect)) :
    Notes w.monitor o.now (w.incoming? o.read) w'.monitor := by
  unfold listen at h
  unfold incoming?
  split at h <;> rename_i hreceive <;> rw [hreceive]
  · unfold forward at h
    split at h
    · obtain ⟨rfl, -⟩ := Prod.mk.inj (Option.some.inj h)
      rw [monitor_send]
      exact .nothing
    · nomatch h
  · obtain ⟨rfl, -⟩ := Prod.mk.inj (Option.some.inj h)
    exact .nothing
  · obtain ⟨rfl, -⟩ := Prod.mk.inj (Option.some.inj h)
    exact .nothing
  · rename_i m link
    obtain ⟨hworker, -⟩ := Prod.mk.inj (Option.some.inj h)
    exact hworker ▸ notes_handle { w with link } o m
  · obtain ⟨rfl, -⟩ := Prod.mk.inj (Option.some.inj h)
    exact .nothing

private theorem notes_select (hphase : w.phase = .waiting) (h : w.select o = some (w', effect)) :
    Notes w.monitor o.now (w.notice? o) w'.monitor := by
  unfold select at h
  unfold notice?
  simp only [hphase]
  split at h
  · rename_i hopen hcommand
    obtain ⟨rfl, -⟩ := Prod.mk.inj (Option.some.inj h)
    rw [if_pos ⟨hopen, by rw [hcommand]; rfl⟩]
    exact .nothing
  · rename_i hopen hcommand
    obtain ⟨rfl, -⟩ := Prod.mk.inj (Option.some.inj h)
    rw [if_pos ⟨hopen, by rw [hcommand]; rfl⟩]
    exact .nothing
  · rename_i hgiven habandoned
    have hnone : ¬ (w.commandsOpen = true ∧ o.command.isSome) := by
      rintro ⟨hopen, hsome⟩
      obtain ⟨command, hcommand⟩ := Option.isSome_iff_exists.mp hsome
      cases command with
      | none => exact habandoned hopen hcommand
      | some reason => exact hgiven reason hopen hcommand
    rw [if_neg hnone]
    split at h <;> rename_i hdue
    · obtain ⟨rfl, -⟩ := Prod.mk.inj (Option.some.inj h)
      rw [if_pos hdue]
      exact notes_beat w o.now
    · rw [if_neg hdue]
      exact notes_listen h

private theorem monitor_of_not_waiting (hphase : w.phase ≠ .waiting) (h : w.Does o w' effect) :
    w'.monitor = w.monitor := by
  cases h with
  | parts _ hparts => cases hparts <;> rfl
  | beats hwaits => exact absurd hwaits hphase
  | hears hlistens | forwards hlistens => exact absurd hlistens.phase_eq hphase
  | _ => rfl

/-- **The monitor keeps the books.** -/
theorem notes_step (h : w.step o = some (w', effect)) :
    Notes w.monitor o.now (w.notice? o) w'.monitor := by
  by_cases hphase : w.phase = .waiting
  · rw [step, hphase] at h
    exact notes_select hphase h
  · have hnone : w.notice? o = none := by
      unfold notice?
      split <;> first | rfl | exact absurd ‹_› hphase
    rw [hnone, monitor_of_not_waiting hphase (does_step h)]
    exact .nothing

/-! ## What a session does at its deadline -/

private theorem lt_staleAt_of_step (hrunning : w.Running) (h : w.step o = none) :
    o.now < w.monitor.staleAt := by
  cases hphase : w.phase with
  | waiting =>
    rw [step, hphase] at h
    simp only [select] at h
    split at h
    · nomatch h
    · nomatch h
    · split at h
      · nomatch h
      · rename_i hdue
        exact Nat.lt_of_lt_of_le (Nat.lt_of_not_le hdue) (Nat.min_le_right _ _)
  | sending t =>
    rw [step, hphase] at h
    simp only at h
    split at h
    · split at h
      · nomatch h
      · exact Nat.lt_of_not_le ‹_›
    all_goals nomatch h
  | ending | parting | shutting | ended =>
    rw [Running, hphase] at hrunning
    exact hrunning.elim

/-- At its deadline, when nobody closes it and the stream takes nothing, a session leaves its loop:
the other side is lost. -/
theorem step_of_staleAt_le (hrunning : w.Running) (hdue : w.monitor.staleAt ≤ o.now)
    (hcommand : w.commandsOpen = true → o.command = none)
    (hblocked : ∀ t, w.phase = .sending t → t.advance o.write o.flush = .blocked) :
    ∃ detail, w.step o = some (w.finish (.error (.lost detail)), .none) := by
  cases hphase : w.phase with
  | waiting =>
    have hwakeup : w.monitor.nextWakeup ≤ o.now := Nat.le_trans (Nat.min_le_right _ _) hdue
    -- A command would come first, and the clock comes before everything else.
    have hselect : w.select o = quietly (w.beat o.now) := by
      unfold select
      split
      · rename_i hopen hgiven
        nomatch (hcommand hopen).symm.trans hgiven
      · rename_i hopen hgiven
        nomatch (hcommand hopen).symm.trans hgiven
      · rw [if_pos hwakeup]
    have hbeat : w.beat o.now = w.finish (.error (silence (o.now - w.monitor.lastAck))) := by
      simp only [beat, Heartbeat.Monitor.poll, if_pos hdue]
    have hstep : w.step o =
        some (w.finish (.error (silence (o.now - w.monitor.lastAck))), .none) := by
      simp only [step, hphase]
      rw [hselect, hbeat]
      rfl
    exact ⟨_, hstep⟩
  | sending t =>
    have hstep : w.step o =
        some (w.finish (.error (stalled (o.now - w.monitor.lastAck))), .none) := by
      simp only [step, hphase, hblocked t hphase, if_pos hdue]
      rfl
    exact ⟨_, hstep⟩
  | ending | parting | shutting | ended =>
    rw [Running, hphase] at hrunning
    exact hrunning.elim

variable {e : Ending}

/-- The worker is busy with a farewell only when there is one. -/
def Tactful (w : Worker) : Prop :=
  ∀ t until_ e, w.phase = .parting t until_ e → farewell? e ≠ none

private theorem tactful_of_leave_le (hleave : w.leave ≤ 1) : w.Tactful := by
  rintro t until_ e hphase
  simp [leave, hphase] at hleave

private theorem tactful_of_does (h : w.Does o w' effect) (htactful : w.Tactful) : w'.Tactful := by
  by_cases hrunning : w.Running
  · exact tactful_of_leave_le ((leads_of_does h).le_one (running_iff.mp hrunning))
  · cases h with
    | parts _ hparts =>
      cases hparts with
      | begins hfarewell =>
        rintro t until_ e ⟨rfl⟩
        simp [hfarewell]
      | silent | refuses => nofun
    | bids hphase =>
      rintro t until_ e ⟨rfl⟩
      exact htactful _ _ _ hphase
    | parted | abandons | shuts => nofun
    | obeys hphase | abandoned hphase | beats hphase =>
      exact absurd (running_of_waiting hphase) hrunning
    | reads hlistens | skips hlistens | hears hlistens | deafened hlistens | forwards hlistens =>
      exact absurd (running_of_waiting hlistens.phase_eq) hrunning
    | stalls hphase | writes hphase | completes hphase | breaks hphase =>
      simp [Running, hphase] at hrunning

private theorem written_of_does (h : w.Does o w' effect) (htactful : w.Tactful)
    (hending : w.ending? = some e) (hfarewell : farewell? e = none) : effect.written = [] := by
  cases h with
  | writes hphase => simp [ending?, hphase] at hending
  | bids hphase =>
    simp only [ending?, hphase, Option.some.injEq] at hending
    exact absurd (hending ▸ hfarewell) (htactful _ _ _ hphase)
  | hears hlistens => simp [ending?, hlistens.phase_eq] at hending
  | _ => rfl

end Worker

/-! ## A session and its clock -/

/-- A session with its queue and the clock, and what has come of it. -/
structure Watch where
  worker : Worker
  queue : Queue
  now : Instant
  /-- When it last took up the acknowledgement of a heartbeat that had been issued; at first, when
  it began. -/
  heard : Instant
  /-- The tokens of the heartbeats that have been issued. -/
  issued : List Nat
  /-- Everything it has written. -/
  written : Bytes

namespace Watch

def begin (session : SessionId) (version : Version) (interval drain : Duration) (link : Link)
    (queue : Queue) (now : Instant) : Watch :=
  ⟨.start session version interval drain link now, queue, now, now, [], []⟩

/-- What is on offer now. -/
def offered (s : Watch) (o : Offer) : Offer :=
  { o with now := s.now, queueOpen := !s.queue.closed, event := s.queue.events.head? }

def note (s : Watch) : Option Worker.Notice → Watch
  | some (.issued token) => { s with issued := s.issued ++ [token] }
  | some (.took (.heartbeatAck token)) =>
    if token.toNat ∈ s.issued then { s with heard := s.now } else s
  | _ => s

/-- What can happen. -/
inductive Act where
  /-- The session moves, with this on offer apart from the time and the queue. -/
  | move (o : Offer)
  /-- Somebody tries to push an event. -/
  | push (e : Event)
  /-- Time passes, if there is nothing that the session can do with this on offer. -/
  | pass (o : Offer)

def act (s : Watch) : Act → Watch
  | .move o =>
    match s.worker.step (s.offered o) with
    | some (worker, effect) =>
      { s.note (s.worker.notice? (s.offered o)) with
        worker
        queue := (effect.applyOutlet ⟨s.queue, .new⟩).queue
        written := s.written ++ effect.written }
    | none => s
  | .push e =>
    match s.queue.tryPush e with
    | .ok (_, queue) => { s with queue }
    | .error _ => s
  | .pass o =>
    match s.worker.step (s.offered o) with
    | some _ => s
    | none => { s with now := s.now + 1 }

def run (s : Watch) (acts : List Act) : Watch := acts.foldl act s

variable {interval : Duration} {s : Watch} {monitor monitor' : Heartbeat.Monitor}

/-- What is recorded is what the monitor has in its books. -/
structure Agrees (interval : Duration) (s : Watch) (monitor : Heartbeat.Monitor) : Prop where
  interval_eq : monitor.interval = interval
  lastAck_eq : monitor.lastAck = s.heard
  issued_iff : ∀ token, token ∈ s.issued ↔ token ≠ 0 ∧ token ≤ monitor.lastToken

theorem Agrees.staleAt_eq (h : s.Agrees interval monitor) :
    monitor.staleAt = s.heard + 2 * interval := by
  rw [Heartbeat.Monitor.staleAt, h.interval_eq, h.lastAck_eq, Nat.mul_comm]

private theorem Agrees.issues {token : Nat} (h : s.Agrees interval monitor)
    (hpoll : monitor.poll s.now = (.beat token, monitor')) :
    (s.note (some (.issued token))).Agrees interval monitor' := by
  have hpolls := monitor.polls s.now
  rw [hpoll] at hpolls
  cases hpolls
  refine ⟨h.interval_eq, h.lastAck_eq, fun token ↦ ?_⟩
  simp only [Watch.note, List.mem_append, List.mem_singleton, h.issued_iff]
  omega

theorem Agrees.acks (h : s.Agrees interval monitor) (token : UInt64) :
    (s.note (some (.took (.heartbeatAck token)))).Agrees interval
      (monitor.onAck token.toNat s.now).2 := by
  have hissued : token.toNat ∈ s.issued ↔
      ¬ (token.toNat = 0 ∨ monitor.lastToken < token.toNat) := by
    rw [h.issued_iff]
    omega
  have hacks := monitor.acks token.toNat s.now
  generalize monitor.onAck token.toNat s.now = acked at hacks ⊢
  obtain ⟨rtt, monitor'⟩ := acked
  cases hacks with
  | ignores hunissued =>
    rw [note, if_neg (mt hissued.mp (not_not_intro hunissued))]
    exact h
  | measures hvalid | revives hvalid =>
    rw [note, if_pos (hissued.mpr hvalid)]
    exact ⟨h.interval_eq, rfl, h.issued_iff⟩

theorem Agrees.note {notice : Option Worker.Notice} (h : s.Agrees interval monitor)
    (hnotes : Worker.Notes monitor s.now notice monitor') :
    (s.note notice).Agrees interval monitor' := by
  cases hnotes with
  | nothing => exact h
  | issued hpoll => exact h.issues hpoll
  | acked => exact h.acks _
  | @took m hm =>
    cases m with
    | heartbeatAck token => exact absurd rfl (hm token)
    | _ => exact h

private theorem now_note (s : Watch) (notice : Option Worker.Notice) :
    (s.note notice).now = s.now := by
  unfold note
  split
  · rfl
  · split <;> rfl
  · rfl

/-- What was heard before has been heard, or it is now that something is heard. -/
theorem heard_note (s : Watch) (notice : Option Worker.Notice) :
    (s.note notice).heard = s.heard ∨ (s.note notice).heard = s.now := by
  unfold note
  split
  · exact .inl rfl
  · split
    · exact .inr rfl
    · exact .inl rfl
  · exact .inl rfl

/-- What is true of a session with heartbeats at this interval. -/
structure InTime (interval : Duration) (s : Watch) : Prop where
  agrees : s.Agrees interval s.worker.monitor
  in_time : s.worker.Running → s.now ≤ s.heard + 2 * interval
  tactful : s.worker.Tactful
  /-- Who has taken leave has closed the queue. -/
  emptied : 2 ≤ s.worker.leave → s.queue.closed = true ∧ s.queue.events = []

private theorem inTime_begin (session : SessionId) (version : Version) (interval drain : Duration)
    (link : Link) (queue : Queue) (now : Instant) :
    (begin session version interval drain link queue now).InTime interval where
  agrees := by
    refine ⟨rfl, rfl, fun token ↦ ?_⟩
    change token ∈ [] ↔ token ≠ 0 ∧ token ≤ 0
    simp
  in_time _ := Nat.le_add_right _ _
  tactful := nofun
  emptied := nofun

theorem InTime.move (h : s.InTime interval) {o : Offer} {worker : Worker} {effect : Effect}
    (hstep : s.worker.step (s.offered o) = some (worker, effect)) :
    (s.act (.move o)).InTime interval := by
  have hdoes := Worker.does_step hstep
  have hagrees := h.agrees.note (Worker.notes_step hstep)
  simp only [act, hstep]
  refine ⟨⟨hagrees.interval_eq, hagrees.lastAck_eq, hagrees.issued_iff⟩, fun hrunning ↦ ?_,
    Worker.tactful_of_does hdoes h.tactful, fun hleave ↦ ?_⟩
  · rw [now_note]
    -- What this move has heard, it has heard now; if that is nothing, the deadline has not moved.
    have hbefore := h.in_time (Worker.running_of_does hdoes hrunning)
    rcases heard_note s (s.worker.notice? (s.offered o)) with hheard | hheard <;> rw [hheard]
    · exact hbefore
    · exact Nat.le_add_right _ _
  · exact (Worker.leads_of_does hdoes).emptied hleave h.emptied

theorem InTime.act (h : s.InTime interval) (a : Act) : (s.act a).InTime interval := by
  cases a with
  | move o =>
    cases hstep : s.worker.step (s.offered o) with
    | none => simpa only [Watch.act, hstep] using h
    | some done => exact h.move hstep
  | push e =>
    simp only [Watch.act]
    split
    · rename_i outcome queue hpush
      refine ⟨⟨h.agrees.interval_eq, h.agrees.lastAck_eq, h.agrees.issued_iff⟩, h.in_time,
        h.tactful, fun hleave ↦ ?_⟩
      -- A closed queue takes nothing.
      rw [Queue.tryPush, if_pos (h.emptied hleave).1] at hpush
      nomatch hpush
    · exact h
  | pass o =>
    simp only [Watch.act]
    split
    · exact h
    · rename_i hstep
      refine ⟨⟨h.agrees.interval_eq, h.agrees.lastAck_eq, h.agrees.issued_iff⟩, fun hrunning ↦ ?_,
        h.tactful, h.emptied⟩
      -- At the deadline there is something to do, so time passes only before it.
      have hlt := Worker.lt_staleAt_of_step hrunning hstep
      rw [h.agrees.staleAt_eq] at hlt
      exact hlt

theorem InTime.run (h : s.InTime interval) (acts : List Act) : (s.run acts).InTime interval := by
  induction acts generalizing s with
  | nil => exact h
  | cons a acts ih => exact ih (h.act a)

/-! ## After the deadline -/

variable {detail : String} {e : Ending}

/-- A session whose other side is lost says nothing more. -/
theorem lost_act (h : s.InTime interval)
    (hlost : s.worker.ending? = some (.error (.lost detail))) (a : Act) :
    (s.act a).written = s.written ∧
      (s.act a).worker.ending? = some (.error (.lost detail)) := by
  cases a with
  | move o =>
    cases hstep : s.worker.step (s.offered o) with
    | none => simpa only [act, hstep, true_and] using hlost
    | some done =>
      obtain ⟨worker, effect⟩ := done
      have hdoes := Worker.does_step hstep
      have hwritten := Worker.written_of_does hdoes h.tactful hlost rfl
      simp only [act, hstep, hwritten, List.append_nil, true_and]
      exact Worker.ending?_of_does hdoes hlost
  | push event =>
    simp only [act]
    split <;> exact ⟨rfl, hlost⟩
  | pass o =>
    simp only [act]
    split <;> exact ⟨rfl, hlost⟩

private theorem lost_run (h : s.InTime interval)
    (hlost : s.worker.ending? = some (.error (.lost detail))) (acts : List Act) :
    (s.run acts).written = s.written ∧
      (s.run acts).worker.ending? = some (.error (.lost detail)) := by
  induction acts generalizing s with
  | nil => exact ⟨rfl, hlost⟩
  | cons a acts ih =>
    obtain ⟨hwritten, hending⟩ := lost_act h hlost a
    obtain ⟨hlater, hended⟩ := ih (h.act a) hending
    exact ⟨hlater.trans hwritten, hended⟩

/-- Without a farewell, it takes two moves to be gone. -/
theorem result?_of_ending (hphase : s.worker.phase = .ending e)
    (hsilent : Worker.farewell? e = none) (o o' : Offer) :
    ((s.act (.move o)).act (.move o')).worker.result? = some e := by
  have hparts : s.worker.step (s.offered o) =
      some ({ s.worker with phase := .shutting e }, .closedQueue) := by
    simp only [Worker.step, hphase, Worker.part, hsilent]
  have hworker : (s.act (.move o)).worker = { s.worker with phase := .shutting e } := by
    simp only [act, hparts]
  have hshuts : (s.act (.move o)).worker.step ((s.act (.move o)).offered o') =
      some ({ s.worker with phase := .ended e }, .shut) := by
    rw [hworker]
    rfl
  rw [act, hshuts]
  rfl

private theorem result?_run (hgone : s.worker.result? = some e) (acts : List Act) :
    (s.run acts).worker.result? = some e := by
  induction acts generalizing s with
  | nil => exact hgone
  | cons a acts ih =>
    refine ih ?_
    cases a with
    | move o =>
      have hphase : s.worker.phase = .ended e := by
        unfold Worker.result? at hgone
        split at hgone
        · exact Option.some.inj hgone ▸ ‹_›
        · nomatch hgone
      have hstep : s.worker.step (s.offered o) = none := by
        simp only [Worker.step, hphase]
      rw [act, hstep]
      exact hgone
    | push event =>
      simp only [act]
      split <;> exact hgone
    | pass o =>
      simp only [act]
      split <;> exact hgone

/-- **A session does not outlive its deadline.** Whatever it is offered and whenever, a session is
not in its loop any more when twice the interval has passed since it last took up an acknowledgement
of a heartbeat that it had issued, or since it began. At that instant, unless it is told to close or
the stream takes more of what is on its way, it leaves because the other side is lost. From then on
it writes nothing and the reason stays; two moves later it is gone, and its queue is closed and
empty for good. -/
theorem deadline (session : SessionId) (version : Version) (interval drain : Duration) (link : Link)
    (queue : Queue) (now : Instant) (acts : List Act) :
    let s := (begin session version interval drain link queue now).run acts
    (s.worker.Running → s.now ≤ s.heard + 2 * interval) ∧
    (∀ o, s.worker.Running → s.now = s.heard + 2 * interval →
      (s.worker.commandsOpen = true → o.command = none) →
      (∀ t, s.worker.phase = .sending t → t.advance o.write o.flush = .blocked) →
      ∃ detail, (s.act (.move o)).worker.phase = .ending (.error (.lost detail))) ∧
    ∀ detail, s.worker.phase = .ending (.error (.lost detail)) →
      (∀ later, let t := s.run later
        t.written = s.written ∧ t.worker.ending? = some (.error (.lost detail)) ∧
          (2 ≤ t.worker.leave → t.queue.closed = true ∧ t.queue.events = [])) ∧
      ∀ o o' later, let t := ((s.act (.move o)).act (.move o')).run later
        t.worker.result? = some (.error (.lost detail)) ∧ t.queue.closed = true ∧
          t.queue.events = [] := by
  intro s
  have h : s.InTime interval :=
    (inTime_begin session version interval drain link queue now).run acts
  refine ⟨h.in_time, fun o hrunning hnow hcommand hblocked ↦ ?_, fun detail hphase ↦ ⟨?_, ?_⟩⟩
  · have hdue : s.worker.monitor.staleAt ≤ (s.offered o).now := by
      rw [h.agrees.staleAt_eq]
      exact Nat.le_of_eq hnow.symm
    obtain ⟨detail, hstep⟩ := Worker.step_of_staleAt_le hrunning hdue hcommand hblocked
    refine ⟨detail, ?_⟩
    simp only [act, hstep]
    rfl
  · intro later t
    have hlost : s.worker.ending? = some (.error (.lost detail)) := by
      simp only [Worker.ending?, hphase]
    obtain ⟨hwritten, hending⟩ := lost_run h hlost later
    exact ⟨hwritten, hending, (h.run later).emptied⟩
  · intro o o' later t
    have hgone : t.worker.result? = some (.error (.lost detail)) :=
      result?_run (result?_of_ending hphase rfl o o') later
    have hleave : 2 ≤ t.worker.leave := by
      rw [Worker.leave_of_result? hgone]
      decide
    exact ⟨hgone, (((h.act _).act _).run later).emptied hleave⟩

/-- A session whose heartbeat is not taken by the stream, with an event waiting behind it and an
acknowledgement of a heartbeat that there never was before it, is gone at its deadline. -/
theorem deadline_stalled :
    let id : SessionId := ⟨⟨List.replicate 16 7, rfl⟩⟩
    let link := (Link.new 1 1024).bind id
    let forged : Envelope := ⟨1, some id, 1, .heartbeatAck 1⟩
    let bytes := (forged.encode.toOption.map Frame.wrap).getD []
    let o (read : ReadReply) : Offer :=
      ⟨0, none, read, .notReady, .finished, true, none, .accepting⟩
    let quiet := Act.pass (o .notReady)
    let move := Act.move (o .notReady)
    let acts := [.move (o (.data bytes)), move, quiet, quiet, quiet, move,
      .push (.key 30 true ⟨0⟩ 5), quiet, quiet, quiet]
    let s := (begin id ⟨1, 0⟩ 3 1000 link (.new 4) 10).run acts
    s.issued = [1] ∧ s.now = s.heard + 2 * 3 ∧ s.now = 16 ∧ s.queue.events ≠ [] ∧
      ∃ detail gone, gone = (s.run [move]).run [move, move] ∧
        gone.worker.result? = some (.error (.lost detail)) ∧ gone.queue.events = [] := by
  intro id link forged bytes o quiet move acts s
  have hissued : s.issued = [1] := by decide +kernel
  have hnow : s.now = s.heard + 2 * 3 := by decide +kernel
  have htime : s.now = 16 := by decide +kernel
  have hevents : s.queue.events ≠ [] := by decide +kernel
  have hrunning : s.worker.Running := Worker.running_iff.mpr (by decide +kernel)
  have hunsent : s.worker.unsent ≠ [] := by decide +kernel
  have hreached := deadline id ⟨1, 0⟩ 3 1000 link (.new 4) 10 acts
  have hleft := deadline id ⟨1, 0⟩ 3 1000 link (.new 4) 10 (acts ++ [move])
  have hrun : (begin id ⟨1, 0⟩ 3 1000 link (.new 4) 10).run (acts ++ [move]) = s.run [move] :=
    List.foldl_append
  have hs : (begin id ⟨1, 0⟩ 3 1000 link (.new 4) 10).run acts = s := rfl
  rw [hs] at hreached
  rw [hrun] at hleft
  -- From here on it does not matter how the session came to its deadline.
  clear_value s
  have hblocked : ∀ t, s.worker.phase = .sending t →
      t.advance (o .notReady).write (o .notReady).flush = .blocked := by
    intro t hphase
    rw [Worker.unsent, hphase] at hunsent
    unfold Frame.Transmission.advance
    split
    · exact absurd ‹_› hunsent
    · rfl
  obtain ⟨detail, hphase⟩ := hreached.2.1 (o .notReady) hrunning hnow (fun _ ↦ rfl) hblocked
  obtain ⟨hgone, -, hempty⟩ := (hleft.2.2 detail hphase).2 (o .notReady) (o .notReady) []
  exact ⟨hissued, hnow, htime, hevents, detail, _, rfl, hgone, hempty⟩

end Watch

end DeskLink.Session
