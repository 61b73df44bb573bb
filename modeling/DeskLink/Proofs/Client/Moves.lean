import DeskLink.Client.Keeper
import DeskLink.Proofs.Session.Moves

/-!
# What happens to a client

A client is called by several callers at a time. Each call that is to connect it is an attempt; it
moves on its own, and so does every session that the client has begun. `Act` lists everything that
can happen. An attempt or a session moves at whatever its end of the stream then is, so a list of
acts covers every behaviour of every server and every order in which callers and sessions come to
act. Waiting for the end of a session is not among the acts, since it only reads, and neither are
the moves of a keeper, which does nothing to a client but what others can do to it as well.

What is proved about clients depends on little of all this: on which sessions have begun, which of
them have ended, and by which one the client is connected. `Wanes` and `Begins` say what an act does
to these.
-/

namespace DeskLink.Client

open Session (Worker Outlet Ending)

/-! ## Sessions that live -/

/-- The name of the session, and how it ended once that has been noted. -/
def Run.brief (r : Run) : SessionId × Option Ending := (r.worker.session, r.ended)

namespace Guest

variable {g g' : Guest} {key : Nat} {id : SessionId} {r r' : Run}

/-- All sessions begun, by key: their names and how they ended. -/
def record (g : Guest) : List (SessionId × Option Ending) := g.runs.map Run.brief

/-- The session with this key has this name, and its end has not been noted. -/
def Lives (g : Guest) (key : Nat) (id : SessionId) : Prop := g.record[key]? = some (id, none)

theorem getElem?_record (g : Guest) (key : Nat) :
    g.record[key]? = (g.runs[key]?).map Run.brief := List.getElem?_map

theorem lives_of_run (hr : g.runs[key]? = some r) (hended : r.ended = none) :
    g.Lives key r.worker.session := by
  rw [Lives, getElem?_record, hr, Option.map_some, Run.brief, hended]

theorem Lives.exists_run (h : g.Lives key id) :
    ∃ r, g.runs[key]? = some r ∧ r.worker.session = id ∧ r.ended = none := by
  rw [Lives, getElem?_record, Option.map_eq_some_iff] at h
  obtain ⟨r, hr, hbrief⟩ := h
  exact ⟨r, hr, Prod.mk.inj hbrief⟩

theorem Lives.ended? (h : g.Lives key id) : g.ended? key = none := by
  obtain ⟨r, hr, -, hended⟩ := h.exists_run
  rw [Guest.ended?, hr, Option.bind_some, hended]

instance (g : Guest) (key : Nat) (id : SessionId) : Decidable (g.Lives key id) :=
  decidable_of_iff ((g.record[key]?).map (fun x ↦ (x.1, x.2.isNone)) = some (id, true)) <| by
    rw [Lives]
    cases g.record[key]? with
    | none => simp
    | some x => obtain ⟨name, _ | e⟩ := x <;> simp

theorem record_setRun (g : Guest) (key : Nat) (r : Run) :
    (g.setRun key r).record = g.record.set key r.brief := List.map_set

/-- The client has the same sessions, and is connected by the same one. -/
structure Keeps (g g' : Guest) : Prop where
  record_eq : g'.record = g.record
  active_eq : g'.active = g.active

theorem Keeps.refl (g : Guest) : g.Keeps g := ⟨rfl, rfl⟩

theorem keeps_setRun (hr : g.runs[key]? = some r) (hbrief : r'.brief = r.brief) :
    g.Keeps (g.setRun key r') where
  record_eq := by
    have hget : g.record[key]? = some r.brief := by rw [getElem?_record, hr, Option.map_some]
    obtain ⟨hlt, hget⟩ := List.getElem?_eq_some_iff.mp hget
    rw [record_setRun, hbrief, ← hget, List.set_getElem_self]
  active_eq := rfl

/-- No session begins, and one may end. -/
inductive Wanes (g : Guest) : Guest → Prop where
  | keeps {g' : Guest} (hkeeps : g.Keeps g') : Wanes g g'
  | ends {g' : Guest} {key : Nat} {id : SessionId} {e : Ending} (hlives : g.Lives key id)
      (hrecord : g'.record = g.record.set key (id, some e))
      (hactive : g'.active = g.active ∨ g'.active = none) : Wanes g g'

/-- A session with this name begins, and the client is connected by it. -/
structure Begins (g g' : Guest) (id : SessionId) : Prop where
  record_eq : g'.record = g.record ++ [(id, none)]
  active_eq : g'.active = some ⟨id, g.record.length⟩

theorem begins_begin (g : Guest) (id : SessionId) (link : Link) (stream : Nat) (now : Instant) :
    g.Begins (g.begin id link stream now) id where
  record_eq := by simp [begin, record, Run.brief, Worker.start]
  active_eq := by simp [begin, record]

theorem keeps_askToClose (g : Guest) (key : Nat) (reason : CloseReason) :
    g.Keeps (g.askToClose key reason) := by
  unfold askToClose
  split
  · exact .refl g
  · rename_i r hr
    exact keeps_setRun hr rfl

private theorem keeps_disconnect (h : g.disconnect id = .ok (key, g')) : g.Keeps g' := by
  unfold disconnect at h
  split at h
  · split at h
    · obtain ⟨-, rfl⟩ := Prod.mk.inj (Except.ok.inj h)
      exact g.keeps_askToClose _ _
    · nomatch h
  · nomatch h

theorem keeps_hand (g : Guest) (key : Nat) (id : SessionId) (e : Event) :
    g.Keeps (g.hand key id e).2 := by
  unfold hand
  split
  · exact .refl g
  · rename_i r hr
    exact keeps_setRun hr rfl

theorem note_same (g : Guest) (effect : Session.Effect) :
    (g.note effect).runs = g.runs ∧ (g.note effect).active = g.active := by
  cases effect with
  | injected e =>
    simp only [note]
    split <;> exact ⟨rfl, rfl⟩
  | progress s =>
    simp only [note]
    split
    · split <;> exact ⟨rfl, rfl⟩
    · exact ⟨rfl, rfl⟩
  | none | command | read | wrote | popped | closedQueue | shut => exact ⟨rfl, rfl⟩

/-- What a move of this session can be for the client: its end is noted, or its worker goes on. -/
inductive Steps (g : Guest) (key : Nat) (r : Run) (now : Instant) (e : Endpoint) :
    Guest → Endpoint → Prop where
  | concludes {ending : Ending} (hresult : r.worker.result? = some ending)
      (hended : r.ended = none) : Steps g key r now e (g.conclude key r ending) e
  | moves {w : Worker} {effect : Session.Effect} (hresult : r.worker.result? = none)
      (hstep : r.worker.step (Session.offer now g.inject (g.outletOf key r) e) =
        some (w, effect)) :
      Steps g key r now e
        ((g.note effect).setRun key
          { r with worker := w, outlet := effect.applyOutlet (g.outletOf key r) })
        (effect.apply e)

theorem steps_of_step {now : Instant} {e e' : Endpoint} (h : g.step key now e = some (g', e')) :
    ∃ r, g.runs[key]? = some r ∧ g.Steps key r now e g' e' := by
  unfold step at h
  split at h
  · nomatch h
  rename_i r hr
  refine ⟨r, hr, ?_⟩
  split at h
  · nomatch h
  · obtain ⟨rfl, rfl⟩ := Prod.mk.inj (Option.some.inj h)
    exact .concludes ‹_› ‹_›
  · obtain ⟨⟨w, effect, outlet, e₁⟩, hmove, heq⟩ := Option.map_eq_some_iff.mp h
    obtain ⟨⟨w₁, effect₁⟩, hstep, hw⟩ := Option.map_eq_some_iff.mp hmove
    obtain ⟨rfl, rfl, rfl, rfl⟩ := by simpa only [Prod.mk.injEq] using hw
    obtain ⟨rfl, rfl⟩ := Prod.mk.inj heq
    exact .moves ‹_› hstep

/-- The end of a session is the end of the connection, if that is still the session's. -/
theorem wanes_conclude (hr : g.runs[key]? = some r) (hended : r.ended = none) (e : Ending) :
    g.Wanes (g.conclude key r e) := by
  refine .ends (lives_of_run hr hended) (g.record_setRun key _) ?_
  -- The connection is forgotten by name, so it may have been another session's.
  by_cases hsame : g.active.map Active.session = some r.worker.session
  · exact .inr (if_pos hsame)
  · exact .inl (if_neg hsame)

theorem keeps_note_setRun {w : Worker} {effect : Session.Effect} {o : Session.Offer}
    (outlet : Outlet) (hr : g.runs[key]? = some r) (hstep : r.worker.step o = some (w, effect)) :
    g.Keeps ((g.note effect).setRun key { r with worker := w, outlet }) := by
  have hsession := Worker.session_of_does (Worker.does_step hstep)
  obtain ⟨hruns, hactive⟩ := note_same g effect
  have hkeeps : (g.note effect).Keeps ((g.note effect).setRun key { r with worker := w, outlet }) :=
    keeps_setRun (hruns ▸ hr) (by rw [Run.brief, Run.brief, hsession])
  exact ⟨hkeeps.record_eq.trans (by rw [record, record, hruns]), hkeeps.active_eq.trans hactive⟩

/-- **A session that moves begins no other.** -/
theorem wanes_of_step {now : Instant} {e e' : Endpoint} (h : g.step key now e = some (g', e')) :
    g.Wanes g' := by
  obtain ⟨r, hr, hsteps⟩ := steps_of_step h
  cases hsteps with
  | concludes _ hended => exact wanes_conclude hr hended _
  | moves _ hstep => exact .keeps (keeps_note_setRun _ hr hstep)

end Guest

/-! ## Attempts -/

namespace Attempt

/-- The attempt has looked at the connection, and is not over. -/
def underWay (a : Attempt) : Bool :=
  match a.phase with
  | .starting | .ended _ => false
  | .closing _ | .dialing _ | .negotiating .. => true

/-- The attempt has seen to the session that was there, and is about to begin its own. -/
def past (a : Attempt) : Bool :=
  match a.phase with
  | .starting | .closing _ | .ended _ => false
  | .dialing _ | .negotiating .. => true

theorem underWay_of_past {a : Attempt} (h : a.past = true) : a.underWay = true := by
  unfold past at h
  unfold underWay
  split at h <;> simp_all

/-- What a move can be for an attempt and the client that it is to connect. -/
inductive Turns (a : Attempt) (g : Guest) : Attempt → Guest → Prop where
  /-- There is a connection, and its session is asked to close. -/
  | closes {active : Active} {a' : Attempt} {g' : Guest} (hphase : a.phase = .starting)
      (hactive : g.active = some active) (hphase' : a'.phase = .closing active.run)
      (hkeeps : g.Keeps g') : Turns a g a' g'
  /-- There is no connection. -/
  | dials {a' : Attempt} {g' : Guest} (hphase : a.phase = .starting) (hactive : g.active = none)
      (hpast : a'.past = true) (hkeeps : g.Keeps g') : Turns a g a' g'
  /-- The session that was asked to close has ended. -/
  | redials {key : Nat} {e : Ending} {a' : Attempt} {g' : Guest} (hphase : a.phase = .closing key)
      (hended : g.ended? key = some e) (hpast : a'.past = true) (hkeeps : g.Keeps g') :
      Turns a g a' g'
  | goesOn {a' : Attempt} {g' : Guest} (hpast : a.past = true) (hpast' : a'.past = true)
      (hkeeps : g.Keeps g') : Turns a g a' g'
  | fails {why : Failure} {a' : Attempt} {g' : Guest} (hpast : a.past = true)
      (hphase' : a'.phase = .ended (.error why)) (hkeeps : g.Keeps g') : Turns a g a' g'
  | begins {id : SessionId} {a' : Attempt} {g' : Guest} (hpast : a.past = true)
      (hphase' : a'.phase = .ended (.ok id)) (hbegins : g.Begins g' id) : Turns a g a' g'

variable {a a' : Attempt} {g g' : Guest} {now : Instant} {answer : DialReply} {e e' : Endpoint}

/-- **A move of an attempt is one of these.** -/
theorem turns_of_step (h : a.step g now answer e = some (g', a', e')) : a.Turns g a' g' := by
  unfold step at h
  split at h
  · nomatch h
  · rename_i hphase
    split at h <;> obtain ⟨rfl, rfl, -⟩ := by simpa only [Option.some.injEq, Prod.mk.injEq] using h
    · exact .closes hphase ‹_› rfl (g.keeps_askToClose _ _)
    · exact .dials hphase ‹_› rfl ⟨rfl, rfl⟩
  · rename_i key hphase
    obtain ⟨ending, hended, heq⟩ := Option.map_eq_some_iff.mp h
    obtain ⟨rfl, rfl, -⟩ := by simpa only [Prod.mk.injEq] using heq
    exact .redials hphase hended rfl ⟨rfl, rfl⟩
  · rename_i deadline hphase
    have hpast : a.past = true := by rw [past, hphase]
    split at h
    · obtain ⟨rfl, rfl, -⟩ := by simpa only [Option.some.injEq, Prod.mk.injEq] using h
      exact .goesOn hpast rfl (.refl g)
    · obtain ⟨rfl, rfl, -⟩ := by simpa only [Option.some.injEq, Prod.mk.injEq] using h
      exact .fails hpast rfl ⟨rfl, rfl⟩
    · split at h
      · obtain ⟨rfl, rfl, -⟩ := by simpa only [Option.some.injEq, Prod.mk.injEq] using h
        exact .fails hpast rfl ⟨rfl, rfl⟩
      · nomatch h
  · rename_i c stream hphase
    have hpast : a.past = true := by rw [past, hphase]
    split at h
    · obtain ⟨rfl, rfl, -⟩ := by simpa only [Option.some.injEq, Prod.mk.injEq] using h
      exact .begins hpast rfl (g.begins_begin ..)
    · obtain ⟨rfl, rfl, -⟩ := by simpa only [Option.some.injEq, Prod.mk.injEq] using h
      exact .fails hpast rfl ⟨rfl, rfl⟩
    · obtain ⟨⟨c', effect, e₁⟩, -, heq⟩ := Option.map_eq_some_iff.mp h
      obtain ⟨rfl, rfl, -⟩ := by simpa only [Prod.mk.injEq] using heq
      exact .goesOn hpast rfl (.refl g)

end Attempt

/-! ## Acts -/

/-- A client with the calls that are to connect it. -/
structure Calls where
  guest : Guest
  attempts : List Attempt

/-- What can happen to a client. -/
inductive Act where
  /-- Somebody calls to connect it. -/
  | connect (address : String)
  /-- The attempt with this index makes a move, at this end of its stream. -/
  | attempt (i : Nat) (now : Instant) (answer : DialReply) (e : Endpoint)
  /-- Whoever made this attempt no longer waits for it. -/
  | giveUp (i : Nat)
  /-- The session with this key makes a move, at this end of its stream. -/
  | session (key : Nat) (now : Instant) (e : Endpoint)
  | disconnect (id : SessionId)
  | hand (key : Nat) (id : SessionId) (e : Event)

namespace Calls

def new (own : Hello) (prover : Prover) (inject : Injector) (tuning : Tuning) : Calls :=
  ⟨.new own prover inject tuning, []⟩

/-- The client after an act. One that is refused or cannot happen changes nothing. -/
def act (c : Calls) : Act → Calls
  | .connect address => { c with attempts := c.attempts ++ [.start address] }
  | .attempt i now answer e =>
    match (c.attempts[i]?).bind (·.step c.guest now answer e) with
    | some (guest, a, _) => ⟨guest, c.attempts.set i a⟩
    | none => c
  | .giveUp i => { c with attempts := c.attempts.eraseIdx i }
  | .session key now e => { c with guest := ((c.guest.step key now e).map (·.1)).getD c.guest }
  | .disconnect id =>
    match c.guest.disconnect id with
    | .ok (_, guest) => { c with guest }
    | .error _ => c
  | .hand key id e => { c with guest := (c.guest.hand key id e).2 }

def perform (c : Calls) (acts : List Act) : Calls := acts.foldl act c

@[simp] theorem perform_nil (c : Calls) : c.perform [] = c := rfl

@[simp] theorem perform_cons (c : Calls) (a : Act) (acts : List Act) :
    c.perform (a :: acts) = (c.act a).perform acts := rfl

/-- Whatever happens to a client, one of the attempts makes a move, or no session begins and the
attempts are among those that there were and new ones. -/
theorem act_cases (c : Calls) (a : Act) :
    (∃ i b b', c.attempts[i]? = some b ∧ (c.act a).attempts = c.attempts.set i b' ∧
      b.Turns c.guest b' (c.act a).guest) ∨
    c.guest.Wanes (c.act a).guest ∧
      ∀ b ∈ (c.act a).attempts, b ∈ c.attempts ∨ b.phase = .starting := by
  have hkeeps := Guest.Wanes.keeps (Guest.Keeps.refl c.guest)
  cases a with
  | connect address =>
    refine .inr ⟨hkeeps, fun b hb ↦ ?_⟩
    rcases List.mem_append.mp hb with hold | hnew
    · exact .inl hold
    · exact .inr (List.mem_singleton.mp hnew ▸ rfl)
  | attempt i now answer e =>
    cases hstep : (c.attempts[i]?).bind (·.step c.guest now answer e) with
    | none =>
      have hact : c.act (.attempt i now answer e) = c := by simp only [act, hstep]
      rw [hact]
      exact .inr ⟨hkeeps, fun b hb ↦ .inl hb⟩
    | some moved =>
      obtain ⟨b, hb, hmove⟩ := Option.bind_eq_some_iff.mp hstep
      simp only [act, hstep]
      exact .inl ⟨i, b, moved.2.1, hb, rfl, Attempt.turns_of_step hmove⟩
  | giveUp i => exact .inr ⟨hkeeps, fun b hb ↦ .inl (List.mem_of_mem_eraseIdx hb)⟩
  | session key now e =>
    refine .inr ⟨?_, fun b hb ↦ .inl hb⟩
    cases hstep : c.guest.step key now e with
    | none => simpa only [act, hstep, Option.map_none, Option.getD_none] using hkeeps
    | some moved =>
      simp only [act, hstep, Option.map_some, Option.getD_some]
      exact Guest.wanes_of_step hstep
  | disconnect id =>
    cases hdisconnect : c.guest.disconnect id with
    | error why =>
      simp only [act, hdisconnect]
      exact .inr ⟨hkeeps, fun b hb ↦ .inl hb⟩
    | ok asked =>
      simp only [act, hdisconnect]
      exact .inr ⟨.keeps (Guest.keeps_disconnect hdisconnect), fun b hb ↦ .inl hb⟩
  | hand key id e => exact .inr ⟨.keeps (c.guest.keeps_hand key id e), fun b hb ↦ .inl hb⟩

/-! ## A client to look at -/

/-- A client that answers every challenge with nothing. -/
def trusting : Calls :=
  new ⟨⟨1, 0⟩, ⟨⟨List.replicate 16 4, rfl⟩, "laptop", 0⟩⟩ ⟨fun _ _ ↦ []⟩ (fun _ ↦ .ok ())
    ⟨1000, 1000, 1024, 4, 100⟩

end Calls

namespace Act

/-- So many moves of an attempt, with these bytes to read at each of them. -/
def goesOn (i : Nat) (b : Bytes) (n : Nat) : List Act :=
  List.replicate n (.attempt i 0 (.connected i) ⟨⟨1024, b, false⟩, .new 1024⟩)

/-- An attempt makes moves, of which the first reads a frame with this message. -/
def hears (i : Nat) (seq : UInt32) (m : Message) (n : Nat) : List Act :=
  goesOn i ((((Link.new 1 1024).frameOf seq m).map (·.rest)).toOption.getD []) 1 ++ goesOn i [] n

/-- A server lets an attempt have a session with this name. -/
def welcome (i : Nat) (id : SessionId) : List Act :=
  hears i 1 (.hello ⟨⟨1, 0⟩, ⟨⟨List.replicate 16 3, rfl⟩, "desk", 0⟩⟩) 3 ++
    hears i 2 (.auth (.challenge .zero)) 7 ++ hears i 3 (.authResult ⟨true, some id⟩) 3

end Act

end DeskLink.Client
