import Mathlib.Data.List.Basic
import DeskLink.Proofs.Client.Runs

/-!
# The story of a client

Of all that happens to a client, callers know this much: that an attempt has dialled, which is where
its own part starts, that it has failed or has returned a session, that a session has measured a
round trip, and that it has ended. These are the `Happening`s, and the `story` of a client lists
them as they come. Sessions are told apart by their keys, which count them in the order in which
they were returned, since two of them may have the same name.

`Tells` says what an act does to the client, given what it adds to the story. The sessions that are
told of are those that the client has begun, with their ends: `Recorded`.
-/

namespace DeskLink.Client

open Session (Worker Outlet Ending)

/-- What can be told about a client. -/
inductive Happening where
  | dialed
  | failed (why : Failure)
  /-- An attempt has returned the session with this key, by its name. -/
  | returned (key : Nat) (id : SessionId)
  | measured (key : Nat) (d : Duration)
  | over (key : Nat) (e : Ending)
  deriving DecidableEq

def Happening.key? : Happening → Option Nat
  | .dialed | .failed _ => none
  | .returned key _ | .measured key _ | .over key _ => some key

/-! ## What is to be told -/

/-- What is to be told of an attempt that has moved, when so many sessions had been begun. -/
def Attempt.news? (a : Attempt) (begun : Nat) : Option Happening :=
  match a.phase with
  | .dialing _ => some .dialed
  | .ended (.ok id) => some (.returned begun id)
  | .ended (.error why) => some (.failed why)
  | .starting | .closing _ | .negotiating .. => none

/-- What is to be told of a session that has moved with this effect. -/
def Happening.ofEffect? (key : Nat) : Session.Effect → Option Happening
  | .progress s => s.rtt.map (.measured key)
  | _ => none

/-- What is to be told when the session with this key makes a move. -/
def Guest.news? (g : Guest) (key : Nat) (now : Instant) (e : Endpoint) : Option Happening :=
  match g.runs[key]? with
  | none => none
  | some r =>
    match r.worker.result?, r.ended with
    | some _, some _ => none
    | some ending, none => some (.over key ending)
    | none, _ =>
      (r.worker.move now g.inject (g.outletOf key r) e).bind fun m ↦ Happening.ofEffect? key m.2.1

namespace Calls

/-- What is to be told of an act. -/
def news? (c : Calls) : Act → Option Happening
  | .attempt i now answer e =>
    ((c.attempts[i]?).bind (·.step c.guest now answer e)).bind fun m ↦
      m.2.1.news? c.guest.record.length
  | .session key now e => c.guest.news? key now e
  | .connect _ | .giveUp _ | .disconnect _ | .hand .. => none

def story (c : Calls) : List Act → List Happening
  | [] => []
  | x :: acts => (c.news? x).toList ++ (c.act x).story acts

theorem story_append (c : Calls) (acts later : List Act) :
    c.story (acts ++ later) = c.story acts ++ (c.perform acts).story later := by
  induction acts generalizing c with
  | nil => rfl
  | cons x acts ih => rw [List.cons_append, story, ih, story, List.append_assoc, perform_cons]

end Calls

/-! ## What a session does to its client -/

private theorem session_of_progress {w w' : Worker} {o : Session.Offer} {effect : Session.Effect}
    {s : Snapshot} (h : w.Does o w' effect) (heffect : effect = .progress s) :
    s.session = w.session := by
  cases h with
  | @hears m link _ _ =>
    cases m with
    | heartbeatAck token =>
      obtain rfl := Session.Effect.progress.inj heffect
      rfl
    | _ => nomatch heffect
  | _ => nomatch heffect

namespace Guest

variable {g g' : Guest} {key : Nat} {r : Run}

theorem getElem?_append_one {α : Type} (l : List α) (x : α) (key : Nat) :
    (l ++ [x])[key]? = if key = l.length then some x else l[key]? := by
  by_cases hlt : key < l.length
  · rw [List.getElem?_append_left hlt, if_neg (Nat.ne_of_lt hlt)]
  · by_cases hsame : key = l.length
    · rw [if_pos hsame, hsame, List.getElem?_concat_length]
    · rw [if_neg hsame, List.getElem?_eq_none (Nat.not_lt.mp hlt), List.getElem?_eq_none]
      rw [List.length_append, List.length_singleton]
      omega

theorem ended?_eq (g : Guest) (key : Nat) : g.ended? key = (g.record[key]?).bind Prod.snd := by
  rw [ended?, getElem?_record]
  cases g.runs[key]? <;> rfl

/-- What is remembered besides the sessions is the same. -/
structure Recalls (g g' : Guest) : Prop where
  lastRtt_eq : g'.lastRtt = g.lastRtt
  lastError_eq : g'.lastError = g.lastError
  lastEnd_eq : g'.lastEnd = g.lastEnd

theorem Recalls.refl (g : Guest) : g.Recalls g := ⟨rfl, rfl, rfl⟩

theorem recalls_askToClose (g : Guest) (key : Nat) (reason : CloseReason) :
    g.Recalls (g.askToClose key reason) := by
  unfold askToClose
  split <;> exact ⟨rfl, rfl, rfl⟩

private theorem recalls_hand (g : Guest) (key : Nat) (id : SessionId) (e : Event) :
    g.Recalls (g.hand key id e).2 := by
  unfold hand
  split <;> exact ⟨rfl, rfl, rfl⟩

/-- To disconnect is to ask the session of the connection to close. -/
theorem eq_of_disconnect {id : SessionId} (h : g.disconnect id = .ok (key, g')) :
    g' = g.askToClose key .userInitiated := by
  unfold disconnect at h
  split at h
  · split at h
    · obtain ⟨rfl, rfl⟩ := Prod.mk.inj (Except.ok.inj h)
      rfl
    · nomatch h
  · nomatch h

theorem record_conclude (g : Guest) (key : Nat) (r : Run) (e : Ending) :
    (g.conclude key r e).record = g.record.set key (r.worker.session, some e) :=
  g.record_setRun key { r with ended := some e }

/-- What a move of a session can be for the client, given what is to be told of it. -/
inductive Tells (g : Guest) (key : Nat) : Option Happening → Guest → Prop where
  | goesOn {g' : Guest} (hkeeps : g.Keeps g') (hrecalls : g.Recalls g') : Tells g key none g'
  | measures {g' : Guest} {r : Run} {d : Duration} (hr : g.runs[key]? = some r)
      (hresult : r.worker.result? = none) (hkeeps : g.Keeps g')
      (hrtt : g.active.map Active.session = some r.worker.session → g'.lastRtt = some d)
      (herror : g'.lastError = g.lastError) (hend : g'.lastEnd = g.lastEnd) :
      Tells g key (some (.measured key d)) g'
  | ends {r : Run} {e : Ending} (hr : g.runs[key]? = some r) (hended : r.ended = none) :
      Tells g key (some (.over key e)) (g.conclude key r e)

private theorem note_of_measured {s : Snapshot} {d : Duration} (g : Guest) (hrtt : s.rtt = some d) :
    g.note (.progress s) = { g with
      latencies := g.latencies + 1
      lastRtt := if g.active.map Active.session = some s.session then some d else g.lastRtt } := by
  simp only [note, hrtt, Option.isSome_some, if_true]
  split <;> rfl

private theorem tells_note {w : Worker} {effect : Session.Effect} {o : Session.Offer}
    (outlet : Outlet) (hr : g.runs[key]? = some r) (hresult : r.worker.result? = none)
    (hstep : r.worker.step o = some (w, effect)) :
    g.Tells key (Happening.ofEffect? key effect)
      ((g.note effect).setRun key { r with worker := w, outlet }) := by
  have hkeeps := keeps_note_setRun outlet hr hstep
  cases effect with
  | progress s =>
    have hsession := session_of_progress (Worker.does_step hstep) rfl
    cases hrtt : s.rtt with
    | none =>
      have hnote : g.note (.progress s) = g := by
        rw [note, hrtt]
        rfl
      rw [hnote] at hkeeps
      rw [Happening.ofEffect?, hrtt, hnote]
      exact .goesOn hkeeps ⟨rfl, rfl, rfl⟩
    | some d =>
      rw [Happening.ofEffect?, hrtt]
      rw [note_of_measured g hrtt] at hkeeps ⊢
      exact .measures hr hresult hkeeps (fun hactive ↦ if_pos (hsession ▸ hactive)) rfl rfl
  | injected e =>
    refine .goesOn hkeeps ?_
    simp only [note, setRun]
    split <;> exact ⟨rfl, rfl, rfl⟩
  | none | command | read | wrote | popped | closedQueue | shut =>
    exact .goesOn hkeeps ⟨rfl, rfl, rfl⟩

/-- **A move of a session is one of these.** -/
theorem tells_step (g : Guest) (key : Nat) (now : Instant) (e : Endpoint) :
    g.Tells key (g.news? key now e) (((g.step key now e).map (·.1)).getD g) := by
  have hrests : g.Tells key none g := .goesOn (.refl g) (.refl g)
  unfold news? step
  cases hr : g.runs[key]? with
  | none => exact hrests
  | some r =>
    simp only
    cases hresult : r.worker.result? with
    | some ending =>
      cases hended : r.ended with
      | some _ => exact hrests
      | none => exact .ends hr hended
    | none =>
      simp only
      cases hmove : r.worker.move now g.inject (g.outletOf key r) e with
      | none => exact hrests
      | some moved =>
        obtain ⟨⟨w, effect⟩, hstep, rfl⟩ := Option.map_eq_some_iff.mp hmove
        exact tells_note _ hr hresult hstep

end Guest

/-! ## What an attempt does to its client -/

namespace Attempt

/-- The attempt does not find a session that could go on. -/
def Free (a : Attempt) (g : Guest) : Prop :=
  (a.phase = .starting ∧ g.active = none) ∨ ∃ key e, a.phase = .closing key ∧ g.ended? key = some e

/-- What a move of an attempt can be for the client, given what is to be told of it. -/
inductive Tells (a : Attempt) (g : Guest) : Attempt → Option Happening → Guest → Prop where
  | closes {a' : Attempt} {key : Nat} (hpast' : a'.past = false) :
      Tells a g a' none (g.askToClose key .userInitiated)
  | dials {a' : Attempt} (hfree : a.Free g) :
      Tells a g a' (some .dialed) { g with lastError := none }
  | goesOn {a' : Attempt} (hpast : a.past = true) : Tells a g a' none g
  | fails {a' : Attempt} {why : Failure} (hpast : a.past = true) (hpast' : a'.past = false) :
      Tells a g a' (some (.failed why)) { g with lastError := some why }
  | returns {a' : Attempt} {id : SessionId} {g' : Guest} (hpast : a.past = true)
      (hbegins : g.Begins g' id) (hrtt : g'.lastRtt = none) (herror : g'.lastError = g.lastError)
      (hend : g'.lastEnd = g.lastEnd) :
      Tells a g a' (some (.returned g.record.length id)) g'

/-- **A move of an attempt is one of these.** -/
theorem tells_step {a a' : Attempt} {g g' : Guest} {now : Instant} {answer : DialReply}
    {e e' : Endpoint} (h : a.step g now answer e = some (g', a', e')) :
    a.Tells g a' (a'.news? g.record.length) g' := by
  unfold step at h
  split at h
  · nomatch h
  · rename_i hphase
    split at h <;> obtain ⟨rfl, rfl, -⟩ := by simpa only [Option.some.injEq, Prod.mk.injEq] using h
    · exact .closes rfl
    · exact .dials (.inl ⟨hphase, ‹_›⟩)
  · rename_i key hphase
    obtain ⟨ending, hended, heq⟩ := Option.map_eq_some_iff.mp h
    obtain ⟨rfl, rfl, -⟩ := by simpa only [Prod.mk.injEq] using heq
    exact .dials (.inr ⟨key, ending, hphase, hended⟩)
  · rename_i deadline hphase
    have hpast : a.past = true := by rw [past, hphase]
    split at h
    · obtain ⟨rfl, rfl, -⟩ := by simpa only [Option.some.injEq, Prod.mk.injEq] using h
      exact .goesOn hpast
    · obtain ⟨rfl, rfl, -⟩ := by simpa only [Option.some.injEq, Prod.mk.injEq] using h
      exact .fails hpast rfl
    · split at h
      · obtain ⟨rfl, rfl, -⟩ := by simpa only [Option.some.injEq, Prod.mk.injEq] using h
        exact .fails hpast rfl
      · nomatch h
  · rename_i c stream hphase
    have hpast : a.past = true := by rw [past, hphase]
    split at h
    · obtain ⟨rfl, rfl, -⟩ := by simpa only [Option.some.injEq, Prod.mk.injEq] using h
      exact .returns hpast (g.begins_begin ..) rfl rfl rfl
    · obtain ⟨rfl, rfl, -⟩ := by simpa only [Option.some.injEq, Prod.mk.injEq] using h
      exact .fails hpast rfl
    · obtain ⟨⟨c', effect, e₁⟩, -, heq⟩ := Option.map_eq_some_iff.mp h
      obtain ⟨rfl, rfl, -⟩ := by simpa only [Prod.mk.injEq] using heq
      exact .goesOn hpast

end Attempt

namespace Calls

variable {c c' : Calls} {news : Option Happening} {log : List Happening}

/-- No attempt is past its look at the connection. -/
def Quiet (c : Calls) : Prop := ∀ a ∈ c.attempts, a.past = false

/-- What an act can be for a client, given what it adds to the story. -/
inductive Tells (c : Calls) (c' : Calls) : Option Happening → Prop where
  | goesOn (hkeeps : c.guest.Keeps c'.guest) (hrecalls : c.guest.Recalls c'.guest)
      (hquiet : c.Quiet → c'.Quiet) : Tells c c' none
  | dials {a : Attempt} (ha : a ∈ c.attempts) (hfree : a.Free c.guest)
      (hguest : c'.guest = { c.guest with lastError := none }) : Tells c c' (some .dialed)
  | fails {why : Failure} (hpast : ¬ c.Quiet) (hquiet : c.Single → c'.Quiet)
      (hguest : c'.guest = { c.guest with lastError := some why }) : Tells c c' (some (.failed why))
  | returns {id : SessionId} (hpast : ¬ c.Quiet) (hbegins : c.guest.Begins c'.guest id)
      (hrtt : c'.guest.lastRtt = none) (herror : c'.guest.lastError = c.guest.lastError)
      (hend : c'.guest.lastEnd = c.guest.lastEnd) :
      Tells c c' (some (.returned c.guest.record.length id))
  | session {key : Nat} {x : Happening} (htells : c.guest.Tells key (some x) c'.guest)
      (hattempts : c'.attempts = c.attempts) : Tells c c' (some x)

theorem quiet_set {i : Nat} {a' : Attempt} (hquiet : c.Quiet) (hpast' : a'.past = false) :
    ∀ b ∈ c.attempts.set i a', b.past = false := fun b hb ↦
  (List.mem_or_eq_of_mem_set hb).elim (hquiet b) fun heq ↦ heq ▸ hpast'

/-- If no two attempts are under way, none is past any more when the one that was has ended. -/
theorem Single.quiet_set {i : Nat} {a a' : Attempt} (h : c.Single) (ha : c.attempts[i]? = some a)
    (hpast : a.past = true) (hpast' : a'.past = false) :
    ∀ b ∈ c.attempts.set i a', b.past = false := by
  intro b hb
  obtain ⟨j, hj⟩ := List.getElem?_of_mem hb
  by_cases hsame : i = j
  · subst hsame
    obtain ⟨hlt, -⟩ := List.getElem?_eq_some_iff.mp ha
    rw [List.getElem?_set_self hlt] at hj
    exact Option.some.inj hj ▸ hpast'
  · rw [List.getElem?_set_ne hsame] at hj
    have hrest := h.not_underWay ha hj hsame (Attempt.underWay_of_past hpast)
    refine Bool.eq_false_iff.mpr fun hb ↦ ?_
    nomatch hrest.symm.trans (Attempt.underWay_of_past hb)

private theorem tells_attempt (c : Calls) (i : Nat) (now : Instant) (answer : DialReply)
    (e : Endpoint) :
    c.Tells (c.act (.attempt i now answer e)) (c.news? (.attempt i now answer e)) := by
  simp only [act, news?]
  cases hstep : (c.attempts[i]?).bind (·.step c.guest now answer e) with
  | none => exact .goesOn (.refl _) (.refl _) id
  | some moved =>
    obtain ⟨g', a', e'⟩ := moved
    obtain ⟨a, ha, hmove⟩ := Option.bind_eq_some_iff.mp hstep
    have htells := Attempt.tells_step hmove
    have hpresent (hpast : a.past = true) : ¬ c.Quiet := fun hquiet ↦
      Bool.false_ne_true ((hquiet a (List.mem_of_getElem? ha)).symm.trans hpast)
    simp only [Option.bind_some]
    generalize a'.news? c.guest.record.length = news at htells
    cases htells with
    | closes hpast' =>
      exact .goesOn (c.guest.keeps_askToClose _ _) (c.guest.recalls_askToClose _ _)
        fun hquiet ↦ quiet_set hquiet hpast'
    | dials hfree => exact .dials (List.mem_of_getElem? ha) hfree rfl
    | goesOn hpast => exact .goesOn (.refl _) (.refl _) fun hquiet ↦ (hpresent hpast hquiet).elim
    | fails hpast hpast' =>
      exact .fails (hpresent hpast) (fun hsingle ↦ hsingle.quiet_set ha hpast hpast') rfl
    | returns hpast hbegins hrtt herror hend =>
      exact .returns (hpresent hpast) hbegins hrtt herror hend

/-- **An act is one of these.** -/
theorem tells_act (c : Calls) (x : Act) : c.Tells (c.act x) (c.news? x) := by
  cases x with
  | attempt i now answer e => exact c.tells_attempt i now answer e
  | connect address =>
    refine .goesOn (.refl _) (.refl _) fun hquiet b hb ↦ ?_
    rcases List.mem_append.mp hb with hold | hnew
    · exact hquiet b hold
    · exact List.mem_singleton.mp hnew ▸ rfl
  | giveUp i =>
    exact .goesOn (.refl _) (.refl _) fun hquiet b hb ↦ hquiet b (List.mem_of_mem_eraseIdx hb)
  | session key now e =>
    have htells := c.guest.tells_step key now e
    simp only [act, news?]
    generalize c.guest.news? key now e = news at htells
    generalize ((c.guest.step key now e).map (·.1)).getD c.guest = g' at htells
    cases news with
    | none =>
      cases htells with
      | goesOn hkeeps hrecalls => exact .goesOn hkeeps hrecalls id
    | some x => exact .session htells rfl
  | disconnect id =>
    simp only [act]
    split
    · rename_i hdisconnect
      rw [Guest.eq_of_disconnect hdisconnect]
      exact .goesOn (c.guest.keeps_askToClose _ _) (c.guest.recalls_askToClose _ _) fun h ↦ h
    · exact .goesOn (.refl _) (.refl _) fun h ↦ h
  | hand key id e =>
    exact .goesOn (c.guest.keeps_hand key id e) (c.guest.recalls_hand key id e) fun h ↦ h

/-! ## The sessions of the story -/

/-- Sessions begin and end as the story tells. -/
theorem Tells.record_cases (h : c.Tells c' news) :
    (c'.guest.record = c.guest.record ∧ (∀ key id, news ≠ some (.returned key id)) ∧
      ∀ key e, news ≠ some (.over key e)) ∨
    (∃ id, news = some (.returned c.guest.record.length id) ∧
      c'.guest.record = c.guest.record ++ [(id, none)]) ∨
    ∃ key id e, news = some (.over key e) ∧ c.guest.Lives key id ∧
      c'.guest.record = c.guest.record.set key (id, some e) := by
  have hrecord {guest : Guest} (hguest : c'.guest = guest) (hruns : guest.runs = c.guest.runs) :
      c'.guest.record = c.guest.record :=
    (congrArg Guest.record hguest).trans (congrArg (List.map Run.brief) hruns)
  cases h with
  | goesOn hkeeps => exact .inl ⟨hkeeps.record_eq, nofun, nofun⟩
  | dials _ _ hguest | fails _ _ hguest => exact .inl ⟨hrecord hguest rfl, nofun, nofun⟩
  | returns _ hbegins => exact .inr (.inl ⟨_, rfl, hbegins.record_eq⟩)
  | session htells =>
    generalize c'.guest = g' at htells
    cases htells with
    | measures _ _ hkeeps => exact .inl ⟨hkeeps.record_eq, nofun, nofun⟩
    | ends hr hended =>
      exact .inr (.inr ⟨_, _, _, rfl, Guest.lives_of_run hr hended, Guest.record_setRun ..⟩)

/-- The story tells of the sessions that the client has begun, and of those that have ended. -/
structure Recorded (c : Calls) (log : List Happening) : Prop where
  returned_iff : ∀ key id, .returned key id ∈ log ↔ (c.guest.record[key]?).map Prod.fst = some id
  over_iff : ∀ key e, .over key e ∈ log ↔ c.guest.ended? key = some e

/-- A session that the story tells of is recorded with its end, if that has come. -/
theorem Recorded.record_eq {key : Nat} {id : SessionId} (h : c.Recorded log)
    (hreturned : .returned key id ∈ log) :
    c.guest.record[key]? = some (id, c.guest.ended? key) := by
  obtain ⟨⟨name, ended⟩, hget, rfl⟩ :=
    Option.map_eq_some_iff.mp ((h.returned_iff key id).mp hreturned)
  rw [Guest.ended?_eq, hget, Option.bind_some]

theorem Recorded.tells (h : c.Recorded log) (htells : c.Tells c' news) :
    c'.Recorded (log ++ news.toList) := by
  rcases htells.record_cases with ⟨hrecord, hreturned, hover⟩ | ⟨id, rfl, hrecord⟩ |
    ⟨key, id, e, rfl, hlives, hrecord⟩
  -- The record is as it was, or has one more session, or has the end of one that was there.
  · have hnews {x : Happening} (hne : news ≠ some x) : x ∈ log ++ news.toList ↔ x ∈ log := by
      simp [Option.mem_toList, hne]
    constructor
    · intro key id
      rw [hnews (hreturned key id), hrecord, h.returned_iff]
    · intro key e
      rw [hnews (hover key e), Guest.ended?_eq, hrecord, ← Guest.ended?_eq, h.over_iff]
  · constructor
    · intro key id'
      rw [List.mem_append, h.returned_iff, hrecord, Guest.getElem?_append_one]
      by_cases hsame : key = c.guest.record.length
      · subst hsame
        simp [eq_comm]
      · simp [hsame]
    · intro key e
      rw [List.mem_append, h.over_iff, Guest.ended?_eq, Guest.ended?_eq, hrecord,
        Guest.getElem?_append_one]
      by_cases hsame : key = c.guest.record.length
      · subst hsame
        simp
      · simp [hsame]
  · have hget : c.guest.record[key]? = some (id, none) := hlives
    obtain ⟨hlt, -⟩ := List.getElem?_eq_some_iff.mp hget
    constructor
    · intro key' id'
      rw [List.mem_append, h.returned_iff, hrecord]
      by_cases hsame : key = key'
      · subst hsame
        simp [hget, List.getElem?_set_self hlt]
      · simp [List.getElem?_set_ne hsame]
    · intro key' e'
      rw [List.mem_append, h.over_iff, Guest.ended?_eq, Guest.ended?_eq, hrecord]
      by_cases hsame : key = key'
      · subst hsame
        simp [hget, List.getElem?_set_self hlt, eq_comm]
      · simp [List.getElem?_set_ne hsame, Ne.symm hsame]

/-- **The story tells of all sessions and of all their ends.** -/
theorem Recorded.perform (h : c.Recorded log) (acts : List Act) :
    (c.perform acts).Recorded (log ++ c.story acts) := by
  induction acts generalizing c log with
  | nil => exact (List.append_nil log).symm ▸ h
  | cons x acts ih =>
    rw [story, ← List.append_assoc]
    exact ih (h.tells (c.tells_act x))

theorem recorded_new (own : Hello) (prover : Prover) (inject : Injector) (tuning : Tuning) :
    (new own prover inject tuning).Recorded [] := by
  constructor
  · simp [new, Guest.new, Guest.record]
  · simp [new, Guest.new, Guest.ended?]

/-! ## The order of the story -/

/-- What is told before a session is returned is about sessions returned before. -/
def InOrder (x y : Happening) : Prop :=
  ∀ key id, y = .returned key id → ∀ earlier, x.key? = some earlier → earlier < key

/-- The keys of the story count the sessions as they are returned. -/
structure Numbered (c : Calls) (log : List Happening) : Prop where
  begun : ∀ x ∈ log, ∀ key, x.key? = some key → key < c.guest.record.length
  inOrder : log.Pairwise InOrder

/-- What is told is about a session that has been begun, and a session is returned when it is. -/
theorem Tells.key_cases (h : c.Tells c' news) : c.guest.record.length ≤ c'.guest.record.length ∧
    ∀ x, news = some x → ∀ key, x.key? = some key → key < c'.guest.record.length ∧
      ∀ id, x = .returned key id → key = c.guest.record.length := by
  have hlt {key : Nat} {r : Run} (hr : c.guest.runs[key]? = some r) :
      key < c.guest.record.length := by
    have hlength : c.guest.record.length = c.guest.runs.length := List.length_map _
    rw [hlength]
    exact (List.getElem?_eq_some_iff.mp hr).1
  cases h with
  | goesOn hkeeps => exact ⟨Nat.le_of_eq (congrArg _ hkeeps.record_eq.symm), nofun⟩
  | dials _ _ hguest | fails _ _ hguest =>
    refine ⟨by rw [hguest]; exact Nat.le_refl _, ?_⟩
    rintro _ ⟨⟩ key hkey
    nomatch hkey
  | returns _ hbegins =>
    rw [hbegins.record_eq, List.length_append, List.length_singleton]
    refine ⟨Nat.le_succ _, ?_⟩
    rintro _ ⟨⟩ key hkey
    obtain rfl := Option.some.inj hkey
    exact ⟨Nat.lt_succ_self _, fun _ _ ↦ rfl⟩
  | session htells =>
    generalize c'.guest = g' at htells ⊢
    cases htells with
    | measures hr _ hkeeps =>
      rw [hkeeps.record_eq]
      refine ⟨Nat.le_refl _, ?_⟩
      rintro _ ⟨⟩ key hkey
      exact ⟨Option.some.inj hkey ▸ hlt hr, nofun⟩
    | ends hr hended =>
      rw [Guest.record_conclude, List.length_set]
      refine ⟨Nat.le_refl _, ?_⟩
      rintro _ ⟨⟩ key hkey
      exact ⟨Option.some.inj hkey ▸ hlt hr, nofun⟩

theorem Numbered.tells (h : c.Numbered log) (htells : c.Tells c' news) :
    c'.Numbered (log ++ news.toList) := by
  obtain ⟨hle, hnews⟩ := htells.key_cases
  constructor
  · intro x hx key hkey
    rcases List.mem_append.mp hx with hold | hnew
    · exact Nat.lt_of_lt_of_le (h.begun x hold key hkey) hle
    · exact (hnews x (Option.mem_toList.mp hnew) key hkey).1
  · refine List.pairwise_append.mpr ⟨h.inOrder, by cases news <;> simp, ?_⟩
    rintro x hx _ hy key id rfl earlier hearlier
    obtain rfl := (hnews _ (Option.mem_toList.mp hy) key rfl).2 id rfl
    exact h.begun x hx earlier hearlier

/-- What is told of a session, or of a later one, is told after it was returned. -/
theorem Numbered.mem_after {before after : List Happening} {key later : Nat} {id : SessionId}
    {x : Happening} (h : c.Numbered log) (hlog : log = before ++ .returned key id :: after)
    (hx : x ∈ log) (hkey : x.key? = some later) (hle : key ≤ later) (hne : x ≠ .returned key id) :
    x ∈ after := by
  subst hlog
  rcases List.mem_append.mp hx with hbefore | hrest
  · obtain ⟨-, -, hacross⟩ := List.pairwise_append.mp h.inOrder
    have hlt := hacross x hbefore _ List.mem_cons_self key id rfl later hkey
    exact absurd hle (Nat.not_le.mpr hlt)
  · exact (List.mem_cons.mp hrest).resolve_left hne

end Calls

end DeskLink.Client
