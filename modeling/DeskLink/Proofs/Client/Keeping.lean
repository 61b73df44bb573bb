import DeskLink.Proofs.Client.Runs

/-!
# What a keeper does

A keeper does nothing to a client but what others can do to it as well: it leaves it as it is, asks
the session of the connection to close, or lets its attempt move. `Keeper.Turns` lists its moves,
with what becomes of the stream that it holds, and `Reconnection.Turns` those of the reconnection
that guides it.

`Upkeep` is a client with a keeper, its streams, and the signal that cancels. Besides the keeper and
the sessions, the peers act at the other ends of the streams, whoever cancels gives the signal, and
producers hand events to sessions. A list of acts covers every behaviour of every server, and the
signal may come at any moment.
-/

namespace DeskLink

namespace Endpoint

variable {e : Endpoint}

/-- Nothing more can come through this end, and nothing can be written to it. -/
def Closed (e : Endpoint) : Prop := e.incoming.closed = true ∧ e.outgoing.closed = true

instance (e : Endpoint) : Decidable e.Closed := inferInstanceAs (Decidable (_ ∧ _))

/-- This end when it has come to this. What is closed stays closed. -/
def later (e now : Endpoint) : Endpoint where
  incoming := { now.incoming with closed := e.incoming.closed || now.incoming.closed }
  outgoing := { now.outgoing with closed := e.outgoing.closed || now.outgoing.closed }

theorem Closed.later (h : e.Closed) (now : Endpoint) : (e.later now).Closed :=
  ⟨by simp [Endpoint.later, h.1], by simp [Endpoint.later, h.2]⟩

theorem closed_drop (e : Endpoint) : e.drop.Closed := ⟨rfl, rfl⟩

theorem Closed.applySession (h : e.Closed) (effect : Session.Effect) : (effect.apply e).Closed := by
  cases effect <;> first | exact h | exact e.closed_drop

theorem Closed.applyHandshake (h : e.Closed) (effect : Handshake.Effect) :
    (effect.apply e).Closed := by
  cases effect with
  | shut => exact ⟨h.1, rfl⟩
  | _ => exact h

end Endpoint

namespace Client

open Session (Worker Outlet Ending)

/-! ## The reconnection -/

namespace Reconnection

/-- What a move of a reconnection can be. -/
inductive Turns (r : Reconnection) (o : Offer) : Reconnection → Request → Prop where
  | cancels (hcancelled : o.cancelled = true) : Turns r o (r.stop (.ok .cancelled)) .nothing
  | connects (hphase : r.phase ≠ .connecting) : Turns r o { r with phase := .connecting } .connect
  | watches {id : SessionId} (hphase : r.phase ≠ .connecting) :
      Turns r o { r with phase := .watching id } (.watch id)
  /-- What was asked for is there, or nothing had been asked for. -/
  | goesOn {r' : Reconnection} (hmet : r.phase = .connecting → o.connected ≠ none)
      (hresult : r'.result? ≠ some (.ok .cancelled)) : Turns r o r' .nothing

variable {r r' : Reconnection} {o : Offer} {request : Request}

theorem result?_recover (r : Reconnection) (why : Failure) (now : Instant) (word : UInt64) :
    (r.recover why now word).result? ≠ some (.ok .cancelled) := by
  unfold recover
  split
  · dsimp only
    split <;> nofun
  · nofun

theorem turns_of_step (h : r.step o = some (r', request)) : r.Turns o r' request := by
  unfold step at h
  split at h
  · nomatch h
  split at h
  · obtain ⟨rfl, rfl⟩ := Prod.mk.inj (Option.some.inj h)
    exact .cancels ‹_›
  unfold proceed at h
  split at h
  · rename_i hphase
    obtain ⟨rfl, rfl⟩ := Prod.mk.inj (Option.some.inj h)
    exact .connects fun hconnecting ↦ nomatch hphase.symm.trans hconnecting
  · obtain ⟨c, hconnected, heq⟩ := Option.map_eq_some_iff.mp h
    have hmet : o.connected ≠ none := by rw [hconnected]; nofun
    split at heq <;> obtain ⟨rfl, rfl⟩ := Prod.mk.inj heq
    · exact .goesOn (fun _ ↦ hmet) nofun
    · exact .goesOn (fun _ ↦ hmet) (r.result?_recover _ _ _)
  · rename_i hphase
    obtain ⟨rfl, rfl⟩ := Prod.mk.inj (Option.some.inj h)
    exact .watches fun hconnecting ↦ nomatch hphase.symm.trans hconnecting
  · rename_i hphase
    obtain ⟨e, -, heq⟩ := Option.map_eq_some_iff.mp h
    split at heq <;> obtain ⟨rfl, rfl⟩ := Prod.mk.inj heq
    · exact .goesOn (fun hconnecting ↦ nomatch hphase.symm.trans hconnecting) nofun
    · exact .goesOn (fun hconnecting ↦ nomatch hphase.symm.trans hconnecting)
        (r.result?_recover _ _ _)
  · rename_i hphase
    split at h
    · obtain ⟨rfl, rfl⟩ := Prod.mk.inj (Option.some.inj h)
      exact .goesOn (fun hconnecting ↦ nomatch hphase.symm.trans hconnecting) nofun
    · nomatch h
  · nomatch h

end Reconnection

/-! ## The keeper -/

theorem Attempt.result?_of_step {a : Attempt} {g : Guest} {now : Instant} {answer : DialReply}
    {e : Endpoint} {moved : Guest × Attempt × Endpoint} (h : a.step g now answer e = some moved) :
    a.result? = none := by
  cases hphase : a.phase with
  | ended result => simp [step, hphase] at h
  | _ => rw [result?, hphase]

namespace Keeper

/-- What a move of a keeper can be for it, the client, and the end of the stream that it holds. -/
inductive Turns (k : Keeper) (g : Guest) (cancelled : Bool) (e : Endpoint) :
    Guest → Keeper → Endpoint → Prop where
  | steers {o : Reconnection.Offer} {control : Reconnection} {request : Reconnection.Request}
      (hcancelled : o.cancelled = cancelled)
      (hconnected : ∀ a, k.call = .attempt a → o.connected = a.result?)
      (hcontrol : k.control.result? = none) (hturns : k.control.Turns o control request) :
      Turns k g cancelled e g ({ k with control }.meet g request) e
  | tries {a a' : Attempt} {g' : Guest} {e' : Endpoint} (hcall : k.call = .attempt a)
      (hopen : a.result? = none) (hcontrol : k.control.result? = none)
      (hturns : a.Turns g a' g') (htends : a.Tends g e g' a' e') :
      Turns k g cancelled e g' { k with call := .attempt a' } e'
  /-- It is cancelled, and the session of the connection is asked to close. -/
  | asks {active : Active} (hcontrol : k.control.result? = some (.ok .cancelled))
      (hactive : g.active = some active) :
      Turns k g cancelled e (g.askToClose active.run .userInitiated)
        { k with call := .closing active.run } (k.dropStream e)
  /-- It is cancelled, and there is no connection. -/
  | retires (hcontrol : k.control.result? = some (.ok .cancelled)) (hactive : g.active = none) :
      Turns k g cancelled e g
        { k with call := .nothing, result := some (.ok .cancelled) } (k.dropStream e)
  /-- The reconnection is over without being cancelled. -/
  | stops {result : Except Failure Reconnection.Outcome}
      (hcontrol : k.control.result? = some result) (hresult : result ≠ .ok .cancelled) :
      Turns k g cancelled e g { k with call := .nothing, result := some result } e
  /-- The session that was asked to close has ended. -/
  | leaves {key : Nat} {ending : Ending} {result : Except Failure Reconnection.Outcome}
      (hcall : k.call = .closing key) (hended : g.ended? key = some ending) :
      Turns k g cancelled e g { k with result := some result } e

variable {k k' : Keeper} {g g' : Guest} {now : Instant} {cancelled : Bool} {word : UInt64}
  {answer : DialReply} {e e' : Endpoint}

private theorem turns_of_finish {result : Except Failure Reconnection.Outcome}
    (hcontrol : k.control.result? = some result) (h : k.finish g result e = some (g', k', e')) :
    k.Turns g cancelled e g' k' e' := by
  unfold finish at h
  split at h
  · obtain ⟨ending, hended, heq⟩ := Option.map_eq_some_iff.mp h
    obtain ⟨rfl, rfl, rfl⟩ := by simpa only [Prod.mk.injEq] using heq
    exact .leaves ‹_› hended
  · dsimp only at h
    split at h
    · obtain ⟨rfl, rfl, rfl⟩ := by simpa only [Option.some.injEq, Prod.mk.injEq] using h
      exact .asks hcontrol ‹_›
    · obtain ⟨rfl, rfl, rfl⟩ := by simpa only [Option.some.injEq, Prod.mk.injEq] using h
      exact .retires hcontrol ‹_›
  · rename_i hresult _
    obtain ⟨rfl, rfl, rfl⟩ := by simpa only [Option.some.injEq, Prod.mk.injEq] using h
    exact .stops hcontrol hresult

/-- **A move of a keeper is one of these**, and it makes none once it is over. -/
theorem turns_of_step (h : k.step g now cancelled word answer e = some (g', k', e')) :
    k.result = none ∧ k.Turns g cancelled e g' k' e' := by
  unfold step at h
  split at h
  · nomatch h
  · exact ⟨‹_›, turns_of_finish ‹_› h⟩
  · rename_i hresult hcontrol
    refine ⟨hresult, ?_⟩
    split at h
    · rename_i control request hstep
      obtain ⟨rfl, rfl, rfl⟩ := by simpa only [Option.some.injEq, Prod.mk.injEq] using h
      refine .steers (o := k.offer g now cancelled word) rfl (fun a hcall ↦ ?_) hcontrol
        (Reconnection.turns_of_step hstep)
      rw [offer, hcall]
    · split at h
      · rename_i a hcall
        obtain ⟨⟨g₁, a', e₁⟩, hstep, heq⟩ := Option.map_eq_some_iff.mp h
        obtain ⟨rfl, rfl, rfl⟩ := by simpa only [Prod.mk.injEq] using heq
        exact .tries hcall (Attempt.result?_of_step hstep) hcontrol (Attempt.turns_of_step hstep)
          (Attempt.tends_of_step hstep)
      · nomatch h

theorem Turns.changes (h : k.Turns g cancelled e g' k' e') : g.Changes g' := by
  cases h with
  | tries _ _ _ _ htends => exact htends.changes
  | asks => exact .asks _
  | steers | retires | stops | leaves => exact .rests ⟨rfl, rfl⟩

end Keeper

/-! ## A client that is kept connected -/

/-- A client and its keeper, with the streams and the signal that cancels. -/
structure Upkeep where
  guest : Guest
  keeper : Keeper
  /-- This side's end of each stream. -/
  streams : Nat → Endpoint
  /-- The streams that this side has opened, some of them more than once in the list. -/
  opened : List Nat
  cancelled : Bool

/-- What can happen to a client that is kept connected. -/
inductive Upkeep.Act where
  /-- The signal is given. -/
  | cancel
  /-- The keeper makes a move; if `sees` is false, it has not seen the signal yet. -/
  | keeper (now : Instant) (sees : Bool) (word : UInt64) (answer : DialReply)
  /-- The session with this key makes a move. -/
  | session (key : Nat) (now : Instant)
  /-- The other side has been at this stream. -/
  | peer (stream : Nat) (e : Endpoint)
  | hand (key : Nat) (id : SessionId) (e : Event)

namespace Upkeep

variable {u : Upkeep}

def begin (g : Guest) (address : String) (policy : Backoff) (streams : Nat → Endpoint) :
    Upkeep where
  guest := g
  keeper := .start address policy
  streams := streams
  opened := (g.runs.filter (·.worker.result?.isNone)).map Run.stream
  cancelled := false

/-- The end of the stream that the keeper holds. -/
def held (u : Upkeep) : Endpoint :=
  match u.keeper.stream? with
  | some stream => u.streams stream
  | none => ⟨.new 0, .new 0⟩

/-- What has happened after an act. One that cannot happen changes nothing. -/
def act (u : Upkeep) : Act → Upkeep
  | .cancel => { u with cancelled := true }
  | .keeper now sees word answer =>
    match u.keeper.step u.guest now (u.cancelled && sees) word answer u.held with
    | some (guest, keeper, e) =>
      { u with
        guest, keeper
        streams := fun s ↦ if u.keeper.stream? = some s then e else u.streams s
        opened := u.opened ++ keeper.stream?.toList }
    | none => u
  | .session key now =>
    match u.guest.runs[key]? with
    | some r =>
      match u.guest.step key now (u.streams r.stream) with
      | some (guest, e) =>
        { u with guest, streams := fun s ↦ if r.stream = s then e else u.streams s }
      | none => u
    | none => u
  | .peer stream e =>
    { u with streams := fun s ↦ if stream = s then (u.streams s).later e else u.streams s }
  | .hand key id e => { u with guest := (u.guest.hand key id e).2 }

def perform (u : Upkeep) (acts : List Act) : Upkeep := acts.foldl act u

@[simp] theorem perform_nil (u : Upkeep) : u.perform [] = u := rfl

@[simp] theorem perform_cons (u : Upkeep) (x : Act) (acts : List Act) :
    u.perform (x :: acts) = (u.act x).perform acts := rfl

theorem perform_append (u : Upkeep) (before after : List Act) :
    u.perform (before ++ after) = (u.perform before).perform after := List.foldl_append

/-- What an act can be for a client that is kept connected. -/
inductive Turns (u : Upkeep) : Upkeep → Prop where
  | signals : Turns u { u with cancelled := true }
  | keeps {sees : Bool} {guest : Guest} {keeper : Keeper} {e : Endpoint}
      (hopen : u.keeper.result = none)
      (hturns : u.keeper.Turns u.guest (u.cancelled && sees) u.held guest keeper e) :
      Turns u { u with
        guest, keeper
        streams := fun s ↦ if u.keeper.stream? = some s then e else u.streams s
        opened := u.opened ++ keeper.stream?.toList }
  | runs {key : Nat} {r : Run} {now : Instant} {guest : Guest} {e : Endpoint}
      (hr : u.guest.runs[key]? = some r)
      (hstep : u.guest.step key now (u.streams r.stream) = some (guest, e)) :
      Turns u { u with guest, streams := fun s ↦ if r.stream = s then e else u.streams s }
  | meets (stream : Nat) (e : Endpoint) :
      Turns u { u with
        streams := fun s ↦ if stream = s then (u.streams s).later e else u.streams s }
  | hands (key : Nat) (id : SessionId) (e : Event) :
      Turns u { u with guest := (u.guest.hand key id e).2 }

theorem act_cases (u : Upkeep) (x : Act) : u.act x = u ∨ u.Turns (u.act x) := by
  cases x with
  | cancel => exact .inr .signals
  | peer stream e => exact .inr (.meets stream e)
  | hand key id e => exact .inr (.hands key id e)
  | keeper now sees word answer =>
    simp only [act]
    split
    · obtain ⟨hopen, hturns⟩ := Keeper.turns_of_step ‹_›
      exact .inr (.keeps hopen hturns)
    · exact .inl rfl
  | session key now =>
    simp only [act]
    split
    · rename_i r hr
      split
      · exact .inr (.runs hr ‹_›)
      · exact .inl rfl
    · exact .inl rfl

theorem Turns.changes {u' : Upkeep} (h : u.Turns u') : u.guest.Changes u'.guest := by
  cases h with
  | signals | meets => exact .rests ⟨rfl, rfl⟩
  | keeps _ hturns => exact hturns.changes
  | runs _ hstep => exact .steps hstep
  | hands key id e => exact .hands key id e

end Upkeep

end Client

end DeskLink
