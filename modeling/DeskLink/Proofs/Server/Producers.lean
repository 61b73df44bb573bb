import DeskLink.Proofs.Server.Moves

/-!
# What producers find when a connection is over

A queue can be reached as soon as its session is registered, which is before the session begins. It
is the session that closes it, as it leaves. So when a connection is over, its queue is closed
exactly if the session had begun: then whoever pushes an event is turned away. If the verdict could
not be delivered, there is nobody to close the queue, nor to take anything out of it. A producer
that waits there for room waits for ever.
-/

namespace DeskLink.Server

open Session (Worker Outlet Mailbox Ending Handed)

/-! ## Which sessions have begun -/

namespace Connection

/-- The session has begun and not come to its end. -/
def Runs (c : Connection) : Prop := ∃ w, c.stage = .running w

/-- The queue is as it must be, given whether the session of the connection has begun. -/
def Settled (c : Connection) (out : Outlet) (begun : Prop) : Prop :=
  match c.stage with
  | .negotiating _ => ¬ begun
  | .running _ => begun
  | .ended _ => out.queue.closed = true ↔ begun

variable {c c' : Connection} {out out' : Outlet} {begun : Prop}

theorem Settled.turns (h : c.Settled out begun) (hfits : c.Fits out)
    (hturns : c.Turns out c' out') : c'.Settled out' (begun ∨ c'.Runs) := by
  have hqueue := hfits.queue
  unfold Settled at h ⊢
  unfold Runs
  cases hturns with
  | negotiates hstage hstage' => simp_all
  | begins hstage hstage' _ => simp_all
  | abandons hstage hstage' => simp_all
  | runs _ hstage _ hstage' => simp_all
  | retires hstage hleave hstage' => simp_all

/-- A connection whose session runs now is one whose session has begun. -/
theorem Settled.or_runs (h : c.Settled out begun) : c.Settled out (begun ∨ c.Runs) := by
  unfold Settled Runs at *
  cases hstage : c.stage with
  | negotiating conduct => simpa [hstage] using h
  | running w => exact .inr ⟨w, rfl⟩
  | ended e => simpa [hstage] using h

theorem Settled.begun_of_runs (h : c.Settled out begun) (hruns : c.Runs) : begun := by
  obtain ⟨w, hstage⟩ := hruns
  simpa only [Settled, hstage] using h

theorem Settled.reached (h : c.Settled out begun) (hreached : Reached out out') :
    c.Settled out' begun := by
  unfold Settled at h ⊢
  rwa [hreached.queue_closed]

end Connection

namespace Host

variable {h h' : Host} {i : Nat}

/-- The connection with this index runs its session. -/
def Runs (h : Host) (i : Nat) : Prop := ∃ c, h.connections[i]? = some c ∧ c.Runs

/-- At some moment during these acts, the connection with this index runs its session. -/
def RunsDuring (h : Host) (acts : List Act) (i : Nat) : Prop :=
  ∃ before after, acts = before ++ after ∧ (h.perform before).Runs i

theorem runs_iff {c : Connection} (hc : h.connections[i]? = some c) : h.Runs i ↔ c.Runs := by
  simp [Runs, hc]

theorem not_runs_of_le (hi : h.connections.length ≤ i) : ¬ h.Runs i := by
  rintro ⟨c, hc, -⟩
  rw [List.getElem?_eq_none hi] at hc
  nomatch hc

theorem runsDuring_of_runs (hruns : h.Runs i) (acts : List Act) : h.RunsDuring acts i :=
  ⟨[], acts, rfl, hruns⟩

private theorem runsDuring_cons {a : Act} {acts : List Act} :
    h.RunsDuring (a :: acts) i ↔ h.Runs i ∨ (h.act a).RunsDuring acts i := by
  constructor
  · rintro ⟨before, after, hacts, hruns⟩
    cases before with
    | nil => exact .inl hruns
    | cons b before =>
      obtain ⟨rfl, rfl⟩ := List.cons.inj hacts
      exact .inr ⟨before, after, rfl, hruns⟩
  · rintro (hruns | ⟨before, after, rfl, hruns⟩)
    · exact runsDuring_of_runs hruns _
    · exact ⟨a :: before, after, rfl, hruns⟩

/-- The queues are as they must be, given which sessions have begun. -/
structure Settled (h : Host) (begun : Nat → Prop) : Prop where
  connection : ∀ (i : Nat) (c : Connection) (out : Outlet),
    h.connections[i]? = some c → h.outlets[i]? = some out → c.Settled out (begun i)
  fresh : ∀ i, h.connections.length ≤ i → ¬ begun i

variable {begun : Nat → Prop}

theorem Settled.moves {c c' : Connection} {out out' : Outlet} {j : Nat} (hs : h.Settled begun)
    (hsound : h.Sound) (hmoves : h.Moves j h' c c' out out') :
    h'.Settled fun i ↦ begun i ∨ h'.Runs i where
  connection i d other hd hother := by
    rw [runs_iff hd]
    by_cases hsame : j = i
    · subst hsame
      rw [hmoves.eq_of_self hd, hmoves.outlet_eq_of_self hother]
      exact (hs.connection j c out hmoves.connection hmoves.outlet).turns
        (hsound.fits j c out hmoves.connection hmoves.outlet) hmoves.turns
    · rw [hmoves.connections_eq, List.getElem?_set_ne hsame] at hd
      rw [hmoves.outlets_eq, List.getElem?_set_ne hsame] at hother
      exact (hs.connection i d other hd hother).or_runs
  fresh i hi := by
    have hlength : h.connections.length ≤ i := by
      rwa [hmoves.connections_eq, List.length_set] at hi
    exact not_or.mpr ⟨hs.fresh i hlength, not_runs_of_le hi⟩

theorem Settled.reaches (hs : h.Settled begun) (hreaches : h.Reaches h') :
    h'.Settled fun i ↦ begun i ∨ h'.Runs i where
  connection i d other hd hother := by
    rw [runs_iff hd]
    obtain ⟨out, hout, hreached⟩ := hreaches.outlet i other hother
    exact ((hs.connection i d out (hreaches.connections_eq ▸ hd) hout).reached hreached).or_runs
  fresh i hi := not_or.mpr ⟨hs.fresh i (hreaches.connections_eq ▸ hi), not_runs_of_le hi⟩

theorem Settled.accept (hs : h.Settled begun) (hsound : h.Sound) (now : Instant) :
    (h.accept now).Settled fun i ↦ begun i ∨ (h.accept now).Runs i where
  connection i d other hd hother := by
    rw [runs_iff hd]
    rcases getElem?_concat hd with hold | ⟨rfl, rfl⟩
    · rcases getElem?_concat hother with hout | ⟨rfl, -⟩
      · exact (hs.connection i d other hold hout).or_runs
      · obtain ⟨hlt, -⟩ := List.getElem?_eq_some_iff.mp hold
        exact absurd hsound.length_eq (Nat.ne_of_lt hlt)
    · rintro (hbegun | ⟨w, hstage⟩)
      · exact hs.fresh _ (Nat.le_refl _) hbegun
      · nomatch hstage
  fresh i hi := by
    have hlength : h.connections.length ≤ i := by
      simp only [Host.accept, List.length_append] at hi
      omega
    exact not_or.mpr ⟨hs.fresh i hlength, not_runs_of_le hi⟩

theorem Settled.act (hs : h.Settled begun) (hsound : h.Sound) (a : Act) :
    (h.act a).Settled fun i ↦ begun i ∨ (h.act a).Runs i := by
  rcases act_cases hsound a with ⟨now, -, heq⟩ | ⟨j, c, c', out, out', hmoves⟩ | hreaches
  · exact heq ▸ hs.accept hsound now
  · exact hs.moves hsound hmoves
  · exact hs.reaches hreaches

theorem Settled.begun_of_runs (hs : h.Settled begun) (hsound : h.Sound) (hruns : h.Runs i) :
    begun i := by
  obtain ⟨c, hc, hruns⟩ := hruns
  obtain ⟨out, hout⟩ := hsound.exists_outlet hc
  exact (hs.connection i c out hc hout).begun_of_runs hruns

theorem Settled.congr {begun' : Nat → Prop} (hs : h.Settled begun)
    (hiff : ∀ i, begun i ↔ begun' i) : h.Settled begun' :=
  funext (fun i ↦ propext (hiff i)) ▸ hs

theorem Settled.perform (hs : h.Settled begun) (hsound : h.Sound) (acts : List Act) :
    (h.perform acts).Settled fun i ↦ begun i ∨ h.RunsDuring acts i := by
  induction acts generalizing h begun with
  | nil =>
    refine hs.congr fun i ↦ ⟨.inl, ?_⟩
    rintro (hbegun | ⟨before, after, hnil, hruns⟩)
    · exact hbegun
    · obtain ⟨rfl, -⟩ := List.append_eq_nil_iff.mp hnil.symm
      exact hs.begun_of_runs hsound hruns
  | cons a acts ih =>
    refine (ih (hs.act hsound a) (hsound.act a)).congr fun i ↦ ?_
    rw [runsDuring_cons]
    constructor
    · rintro ((hbegun | hruns) | hlater)
      · exact .inl hbegun
      · exact .inr (.inr (runsDuring_of_runs hruns acts))
      · exact .inr (.inr hlater)
    · rintro (hbegun | hruns | hlater)
      · exact .inl (.inl hbegun)
      · exact .inl (.inl (hs.begun_of_runs hsound hruns))
      · exact .inr hlater

/-- A server at which nothing has happened has no connection whose session has begun. -/
theorem settled_new (own : Hello) (checker : Checker) (inject : Injector) (tuning : Tuning)
    (entropy : Entropy) (maxClients : Nat) :
    (new own checker inject tuning entropy maxClients).Settled fun _ ↦ False where
  connection _ _ _ hc := by simp [new] at hc
  fresh _ _ := id

/-! ## What a producer finds -/

theorem stage_of_result? {c : Connection} {e : Ending} (h : c.result? = some e) :
    c.stage = .ended e := by
  unfold Connection.result? at h
  split at h
  · exact Option.some.inj h ▸ ‹_›
  · nomatch h

private theorem hand_refused_iff (out : Outlet) (id : SessionId) (event : Event) :
    out.hand id event = (.refused (.notFound id), out) ↔ out.queue.closed = true := by
  unfold Outlet.hand Queue.tryPush
  by_cases hclosed : out.queue.closed = true
  · simp only [hclosed, if_true]
  · simp only [hclosed, if_false, Bool.false_eq_true]
    cases Queue.place? out.queue.capacity out.queue.events event <;> simp

/-- **A finished connection turns producers away exactly if its session had begun.** -/
theorem refused_iff_ran (own : Hello) (checker : Checker) (inject : Injector) (tuning : Tuning)
    (entropy : Entropy) (maxClients : Nat) (acts : List Act) {c : Connection} {out : Outlet}
    {e : Ending}
    (hc : ((new own checker inject tuning entropy maxClients).perform acts).connections[i]?
      = some c)
    (hout : ((new own checker inject tuning entropy maxClients).perform acts).outlets[i]?
      = some out)
    (hended : c.result? = some e) (id : SessionId) (event : Event) :
    out.hand id event = (.refused (.notFound id), out) ↔
      (new own checker inject tuning entropy maxClients).RunsDuring acts i := by
  have hsound := sound_new own checker inject tuning entropy maxClients
  have hsettled := (settled_new own checker inject tuning entropy maxClients).perform hsound acts
  have hqueue := hsettled.connection i c out hc hout
  simp only [Connection.Settled, stage_of_result? hended, false_or] at hqueue
  rw [hand_refused_iff, hqueue]

end Host

/-! ## Waiting for ever -/

/-- A queue is open, and full of events that it does not give up. -/
structure Jammed (out : Outlet) : Prop where
  queue_open : out.queue.closed = false
  full : out.queue.capacity ≤ out.queue.events.length
  lasting : out.queue.events.any Event.isMove = false

namespace Jammed

variable {out out' : Outlet}

private theorem tailIsMove_eq (h : Jammed out) : Queue.tailIsMove out.queue.events = false := by
  unfold Queue.tailIsMove
  cases hlast : out.queue.events.getLast? with
  | none => rfl
  | some e => simpa using List.any_eq_false.mp h.lasting e (List.mem_of_getLast? hlast)

theorem place?_eq (h : Jammed out) (e : Event) :
    Queue.place? out.queue.capacity out.queue.events e
      = if e.isMove then some (.droppedMove, out.queue.events) else none := by
  simp [Queue.place?, h.tailIsMove_eq, h.lasting, Nat.not_lt.mpr h.full]

theorem hand_of_not_isMove (h : Jammed out) {e : Event} (he : e.isMove = false)
    (id : SessionId) : out.hand id e = (.wait, out) := by
  simp [Outlet.hand, Queue.tryPush, h.queue_open, h.place?_eq, he]

theorem hand (h : Jammed out) (id : SessionId) (e : Event) : Jammed (out.hand id e).2 := by
  cases he : e.isMove with
  | false => rwa [h.hand_of_not_isMove he]
  | true =>
    obtain ⟨hopen, hfull, hlasting⟩ := h
    have hplace := Jammed.place?_eq ⟨hopen, hfull, hlasting⟩ e
    simp only [Outlet.hand, Queue.tryPush, hopen, hplace, he, if_true, Bool.false_eq_true,
      if_false]
    exact ⟨rfl, hfull, hlasting⟩

theorem reached (h : Jammed out) (hreached : Reached out out') : Jammed out' := by
  induction hreached with
  | refl => exact h
  | posted _ _ ih => exact ⟨ih.queue_open, ih.full, ih.lasting⟩
  | handed id e _ ih => exact ih.hand id e

end Jammed

namespace Host

variable {h h' : Host} {i : Nat}

/-- A finished connection has left its queue open and full. -/
def Strands (h : Host) (i : Nat) : Prop :=
  ∃ c out e, h.connections[i]? = some c ∧ h.outlets[i]? = some out ∧ c.stage = .ended e ∧
    Jammed out

theorem Strands.act (hstrands : h.Strands i) (hsound : h.Sound) (a : Act) :
    (h.act a).Strands i := by
  obtain ⟨c, out, e, hc, hout, hended, hjammed⟩ := hstrands
  rcases act_cases hsound a with ⟨now, -, heq⟩ | ⟨j, d, d', other, other', hmoves⟩ | hreaches
  · obtain ⟨hlt, -⟩ := List.getElem?_eq_some_iff.mp hc
    obtain ⟨hlt', -⟩ := List.getElem?_eq_some_iff.mp hout
    rw [heq]
    exact ⟨c, out, e, (List.getElem?_append_left hlt).trans hc,
      (List.getElem?_append_left hlt').trans hout, hended, hjammed⟩
  · rcases Decidable.em (j = i) with rfl | hne
    -- A connection that is over makes no move.
    · obtain rfl := Option.some.inj (hc.symm.trans hmoves.connection)
      cases hmoves.turns <;> simp_all
    · refine ⟨c, out, e, ?_, ?_, hended, hjammed⟩
      · rw [hmoves.connections_eq, List.getElem?_set_ne hne, hc]
      · rw [hmoves.outlets_eq, List.getElem?_set_ne hne, hout]
  · obtain ⟨hlt, -⟩ := List.getElem?_eq_some_iff.mp hout
    have hout' := List.getElem?_eq_getElem (hreaches.length_eq.symm ▸ hlt)
    obtain ⟨out₁, hout₁, hreached⟩ := hreaches.outlet i _ hout'
    obtain rfl := Option.some.inj (hout.symm.trans hout₁)
    exact ⟨c, _, e, hreaches.connections_eq ▸ hc, hout', hended, hjammed.reached hreached⟩

theorem Strands.perform (hstrands : h.Strands i) (hsound : h.Sound) (acts : List Act) :
    (h.perform acts).Strands i := by
  induction acts generalizing h with
  | nil => exact hstrands
  | cons a acts ih => exact ih (hstrands.act hsound a) (hsound.act a)

/-- Whoever waits at the queue of a finished connection does so whatever happens. -/
theorem Strands.waits (hstrands : h.Strands i) (hsound : h.Sound) (acts : List Act)
    (id : SessionId) {event : Event} (hevent : event.isMove = false) :
    (handTo (h.perform acts).outlets i id event).1 = .wait := by
  obtain ⟨c, out, e, -, hout, -, hjammed⟩ := hstrands.perform hsound acts
  simp only [handTo, hout, hjammed.hand_of_not_isMove hevent]

/-- A session is registered, an event fills its queue, and then the verdict cannot be delivered.
The session has not begun, and whoever brings the next event waits for ever. -/
theorem strands_undelivered :
    let id : SessionId := ⟨⟨List.replicate 16 7, rfl⟩⟩
    let key : Event := .key 30 true ⟨0⟩ 5
    let registered := (lenient 1).perform (Act.greeting ++ Act.answering)
    let broken : Act := .move 0 0 ⟨.new 0, (Pipe.new 0).close⟩
    let acts := Act.greeting ++ Act.answering ++
      .hand 0 id key :: List.replicate 5 broken
    registered.registry.control id = some 0 ∧ ¬ (lenient 1).RunsDuring acts 0 ∧
      ∀ later event, event.isMove = false →
        (handTo ((lenient 1).perform (acts ++ later)).outlets 0 id event).1 = .wait := by
  intro id key registered broken acts
  have hsound : (lenient 1).Sound := sound_new ..
  have hrefused (acts : List Act) {c : Connection} {out : Outlet} {e : Ending}
      (hc : ((lenient 1).perform acts).connections[0]? = some c)
      (hout : ((lenient 1).perform acts).outlets[0]? = some out) (hended : c.result? = some e) :
      out.hand id key = (.refused (.notFound id), out) ↔ (lenient 1).RunsDuring acts 0 :=
    refused_iff_ran _ _ _ _ _ _ acts hc hout hended id key
  have hover : (((lenient 1).perform acts).connections[0]?.bind (·.result?)).isSome = true := by
    decide +kernel
  obtain ⟨e, he⟩ := Option.isSome_iff_exists.mp hover
  obtain ⟨c, hc, hended⟩ := Option.bind_eq_some_iff.mp he
  have hout : ((lenient 1).perform acts).outlets[0]?
      = some ⟨⟨1, [key], false, ⟨1, 0, 0⟩⟩, ⟨8, [], false, true⟩⟩ := by decide +kernel
  have hstrands : ((lenient 1).perform acts).Strands 0 :=
    ⟨c, _, e, hc, hout, stage_of_result? hended, rfl, Nat.le_refl 1, rfl⟩
  refine ⟨by decide +kernel, ?_, fun later event hevent ↦ ?_⟩
  · rw [← hrefused acts hc hout hended]
    decide +kernel
  · rw [perform_append]
    exact hstrands.waits (hsound.perform acts) later id hevent

end Host

end DeskLink.Server
