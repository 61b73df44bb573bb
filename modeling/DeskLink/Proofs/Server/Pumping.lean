import DeskLink.Server.Forwarder
import DeskLink.Proofs.Input.Accounting
import DeskLink.Proofs.Input.Moves

/-!
# What a pump counts

A pump forwards events one after another, and whatever else happens meanwhile is not up to it:
sessions come and go, and queues fill, drain and are closed. A `Scene` is what it meets when its
turn comes, and nothing is assumed about how one scene follows from another.

What becomes of an event can be seen from the queue that it was handed to. It waits there, behind
all others, or the queue has discarded it, or no open queue was given it. The pump does not look: it
counts every event that a queue has answered with an outcome, and to discard a pointer move is an
outcome as well. So the count is that of the events that entered a queue and of those that were
discarded, together: `Pump.counts_discarded`.
-/

namespace DeskLink

namespace Session.Outlet

/-- What handing an event to a session can be. -/
inductive Hands (out : Outlet) (id : SessionId) (e : Event) : Handed → Outlet → Prop where
  | places {outcome : PushOutcome} {events : List Event} (hopen : out.queue.closed = false)
      (hplaces : Queue.Places out.queue.capacity out.queue.events e outcome events) :
      Hands out id e (.done outcome) { out with
        queue := { out.queue with events, stats := out.queue.stats.count outcome } }
  | closed (hclosed : out.queue.closed = true) : Hands out id e (.refused (.notFound id)) out
  /-- Nothing that waits may be dropped, and neither may the event. -/
  | waits (hopen : out.queue.closed = false)
      (hfull : out.queue.capacity ≤ out.queue.events.length)
      (hlasting : ∀ x ∈ out.queue.events, x.isMove = false) (hnew : e.isMove = false) :
      Hands out id e .wait out

theorem hands_hand (out : Outlet) (id : SessionId) (e : Event) :
    out.Hands id e (out.hand id e).1 (out.hand id e).2 := by
  simp only [hand]
  rcases hpush : out.queue.tryPush e with why | ⟨outcome, q⟩
  · rcases Queue.of_tryPush_error hpush with ⟨hclosed, rfl⟩ | ⟨hopen, hplace, rfl⟩
    · exact .closed hclosed
    · obtain ⟨hfull, hlasting, hnew⟩ := Queue.full_of_place? hplace
      exact .waits hopen hfull hlasting hnew
  · obtain ⟨hopen, hplaces, heq⟩ := Queue.of_tryPush hpush
    dsimp only
    rw [heq]
    exact .places hopen hplaces

end Session.Outlet

namespace Server

open Session (Outlet Handed)

/-- An event is placed in an open queue, turned away, or has to wait. -/
theorem handTo_cases (outlets : List Outlet) (key : Nat) (id : SessionId) (e : Event) :
    (∃ out outcome q, outlets[key]? = some out ∧ out.queue.closed = false ∧
      Queue.Places out.queue.capacity out.queue.events e outcome q.events ∧
      handTo outlets key id e = (.done outcome, setOutlet outlets key { out with queue := q })) ∨
    ((∀ out, outlets[key]? = some out → out.queue.closed = true) ∧
      handTo outlets key id e = (.refused (.notFound id), outlets)) ∨
    handTo outlets key id e = (.wait, outlets) := by
  cases hout : outlets[key]? with
  | none => exact .inr (.inl ⟨nofun, by simp only [handTo, hout]⟩)
  | some out =>
    have hhands := out.hands_hand id e
    simp only [handTo, hout]
    generalize out.hand id e = answer at hhands
    obtain ⟨handed, out'⟩ := answer
    dsimp only at hhands ⊢
    cases hhands with
    | places hopen hplaces => exact .inl ⟨out, _, _, rfl, hopen, hplaces, rfl⟩
    | closed hclosed =>
      rw [setOutlet_self hout]
      exact .inr (.inl ⟨fun out' hsome ↦ Option.some.inj hsome ▸ hclosed, rfl⟩)
    | waits =>
      rw [setOutlet_self hout]
      exact .inr (.inr rfl)

theorem getElem?_handTo (outlets : List Outlet) (key : Nat) (id : SessionId) (e : Event)
    (other : Nat) : (handTo outlets key id e).2[other]? =
      if other = key then outlets[key]?.map fun out ↦ (out.hand id e).2 else outlets[other]? := by
  by_cases hsame : other = key
  · subst hsame
    rw [if_pos rfl]
    cases hout : outlets[other]? with
    | none => simp only [handTo, hout, Option.map_none]
    | some out =>
      have hlt := (List.getElem?_eq_some_iff.mp hout).1
      simp only [handTo, hout, Option.map_some, setOutlet, List.getElem?_set_self hlt]
  · rw [if_neg hsame]
    cases hout : outlets[key]? with
    | none => simp only [handTo, hout]
    | some out => simp only [handTo, hout, setOutlet, List.getElem?_set_ne (Ne.symm hsame)]

namespace Pump

/-! ## What a move can be -/

/-- The pump when this is the answer about the event that it carries. -/
def answered (p : Pump) : Handed → Pump
  | .done outcome => p.note (.pushed outcome)
  | .refused why => p.note (.refused why)
  | .wait => p

/-- What a move of a pump can be. -/
inductive Moves (r : Registry) (pin : Option SessionId) (outlets : List Outlet) (p : Pump) :
    Pump → List Outlet → Prop where
  /-- There is nobody for the next event. -/
  | passes {e : Event} {coming : List Event} (hheld : p.held = none)
      (hcoming : p.coming = e :: coming) (htarget : target r pin = none) :
      Moves r pin outlets p ({ p with coming }.note .nobody) outlets
  /-- The session that it is for cannot be reached. -/
  | misses {e : Event} {coming : List Event} {id : SessionId} (hheld : p.held = none)
      (hcoming : p.coming = e :: coming) (htarget : target r pin = some id)
      (hcontrol : r.control id = none) :
      Moves r pin outlets p ({ p with coming }.note (.refused (.notFound id))) outlets
  /-- It is on its way to a queue. -/
  | takes {e : Event} {coming : List Event} {id : SessionId} {key : Nat} (hheld : p.held = none)
      (hcoming : p.coming = e :: coming) (htarget : target r pin = some id)
      (hcontrol : r.control id = some key) :
      Moves r pin outlets p { p with coming, held := some (e, id, key) } outlets
  /-- The queue answers with an outcome. -/
  | hands {e : Event} {id : SessionId} {key : Nat} {out : Outlet} {outcome : PushOutcome}
      {q : Queue} (hheld : p.held = some (e, id, key)) (hout : outlets[key]? = some out)
      (hopen : out.queue.closed = false)
      (hplaces : Queue.Places out.queue.capacity out.queue.events e outcome q.events) :
      Moves r pin outlets p (p.note (.pushed outcome))
        (setOutlet outlets key { out with queue := q })
  /-- The queue is closed. -/
  | fails {e : Event} {id : SessionId} {key : Nat} (hheld : p.held = some (e, id, key))
      (hclosed : ∀ out, outlets[key]? = some out → out.queue.closed = true) :
      Moves r pin outlets p (p.note (.refused (.notFound id))) outlets

variable {r : Registry} {pin : Option SessionId} {outlets outlets' : List Outlet} {p p' : Pump}

private theorem moves_of_retry {e : Event} {id : SessionId} {key : Nat}
    (hheld : p.held = some (e, id, key)) (h : p.retry outlets e id key = some (p', outlets')) :
    p.Moves r pin outlets p' outlets' := by
  unfold retry at h
  rcases handTo_cases outlets key id e with
    ⟨out, outcome, q, hout, hopen, hplaces, hhand⟩ | ⟨hclosed, hhand⟩ | hhand
  · rw [hhand] at h
    obtain ⟨rfl, rfl⟩ := Prod.mk.inj (Option.some.inj h)
    exact .hands hheld hout hopen hplaces
  · rw [hhand] at h
    obtain ⟨rfl, rfl⟩ := Prod.mk.inj (Option.some.inj h)
    exact .fails hheld hclosed
  · rw [hhand] at h
    nomatch h

/-- **A move is one of these.** -/
theorem moves_of_step (h : p.step r pin outlets = some (p', outlets')) :
    p.Moves r pin outlets p' outlets' := by
  unfold step at h
  split at h
  · exact moves_of_retry ‹_› h
  rename_i hheld
  split at h
  · nomatch h
  rename_i e coming hcoming
  split at h
  · obtain ⟨rfl, rfl⟩ := Prod.mk.inj (Option.some.inj h)
    exact .passes hheld hcoming ‹_›
  · split at h
    · obtain ⟨rfl, rfl⟩ := Prod.mk.inj (Option.some.inj h)
      exact .misses hheld hcoming ‹_› ‹_›
    · obtain ⟨rfl, rfl⟩ := Prod.mk.inj (Option.some.inj h)
      exact .takes hheld hcoming ‹_› ‹_›

/-- A pump that carries nothing takes the next event along for whoever is the target. -/
theorem step_of_coming {e : Event} {coming : List Event} (hheld : p.held = none)
    (hcoming : p.coming = e :: coming) : p.step r pin outlets =
      some (match target r pin with
        | none => { p with coming }.note .nobody
        | some id =>
          match r.control id with
          | none => { p with coming }.note (.refused (.notFound id))
          | some key => { p with coming, held := some (e, id, key) }, outlets) := by
  cases htarget : target r pin with
  | none => simp only [step, hheld, hcoming, htarget]
  | some id => cases hcontrol : r.control id <;> simp only [step, hheld, hcoming, htarget, hcontrol]

/-! ## What becomes of events -/

/-- What a pump meets when its turn comes. -/
structure Scene where
  registry : Registry
  pin : Option SessionId
  outlets : List Outlet

/-- What becomes of an event. -/
inductive Fate where
  /-- An open queue has it behind all others. -/
  | entered
  /-- An open queue does without it. -/
  | discarded
  /-- There was no open queue for it. -/
  | turnedAway
  deriving DecidableEq

/-- What has become of an event that was handed to the queue with this key, as the queues show. -/
def fateOf (before after : List Outlet) (key : Nat) (e : Event) : Fate :=
  match before[key]?, after[key]? with
  | some out, some out' =>
    if out.queue.closed then .turnedAway
    else if out'.queue.events.getLast? = some e then .entered
    else .discarded
  | _, _ => .turnedAway

/-- The event that a move is done with, and what has become of it. -/
def settled? (p : Pump) (s : Scene) : Option (Event × Fate) :=
  match p.step s.registry s.pin s.outlets with
  | none => none
  | some (p', outlets) =>
    match p.held with
    | some (e, _, key) => some (e, fateOf s.outlets outlets key e)
    | none => if p'.held.isNone then p.coming.head?.map (·, .turnedAway) else none

/-- The pump after its turn. -/
def meet (p : Pump) (s : Scene) : Pump :=
  ((p.step s.registry s.pin s.outlets).map Prod.fst).getD p

def course (p : Pump) (scenes : List Scene) : Pump := scenes.foldl meet p

/-- The events that it is done with by then, in order. -/
def fates (p : Pump) : List Scene → List (Event × Fate)
  | [] => []
  | s :: scenes => (p.settled? s).toList ++ (p.meet s).fates scenes

def remaining (p : Pump) : List Event := (p.held.map Prod.fst).toList ++ p.coming

/-- An open queue is full of events that it does not give up. -/
def Crowded (q : Queue) : Prop :=
  q.closed = false ∧ q.capacity ≤ q.events.length ∧ ∀ x ∈ q.events, x.isMove = false

/-- What a turn can be: it goes by, an event is taken along, or one is done with. -/
inductive Turns (p : Pump) (s : Scene) : Pump → Option (Event × Fate) → Prop where
  | rests : Turns p s p none
  | takes {p' : Pump} (hremaining : p'.remaining = p.remaining) (hcount : p'.count = p.count) :
      Turns p s p' none
  | turnsAway {p' : Pump} {e : Event} (hremaining : p.remaining = e :: p'.remaining)
      (hcount : p'.count = p.count) : Turns p s p' (some (e, .turnedAway))
  | enters {p' : Pump} {e : Event} (hremaining : p.remaining = e :: p'.remaining)
      (hcount : p'.count = p.count + 1) : Turns p s p' (some (e, .entered))
  | discards {p' : Pump} {e : Event} {id : SessionId} {key : Nat} {out : Outlet}
      (hheld : p.held = some (e, id, key)) (hremaining : p.remaining = e :: p'.remaining)
      (hcount : p'.count = p.count + 1) (hout : s.outlets[key]? = some out)
      (hcrowded : Crowded out.queue) (hmove : e.isMove = true) :
      Turns p s p' (some (e, .discarded))

/-- A queue that has discarded an event was crowded, and the event is a move. -/
theorem crowded_of_places {q q' : Queue} {e : Event} {outcome : PushOutcome}
    (hopen : q.closed = false) (hplaces : Queue.Places q.capacity q.events e outcome q'.events)
    (haccepts : outcome.accepts = false) : Crowded q ∧ e.isMove = true := by
  generalize q'.events = events at hplaces
  cases hplaces with
  | drops hfull hlasting hnew => exact ⟨⟨hopen, hfull, hlasting⟩, hnew⟩
  | coalesces | appends | evicts => nomatch haccepts

theorem count_note (p : Pump) (f : Forwarded) :
    (p.note f).count = p.count + if f matches .pushed _ then 1 else 0 := by
  cases f <;> simp [count, note]

private theorem fateOf_of_closed {key : Nat} {e : Event}
    (h : ∀ out, outlets[key]? = some out → out.queue.closed = true) :
    fateOf outlets outlets key e = .turnedAway := by
  unfold fateOf
  cases hout : outlets[key]? with
  | none => rfl
  | some out => simp only [h out hout, if_true]

/-- A queue shows whether it has taken an event: what it takes comes last, and it discards a move
only if it has none. -/
theorem fateOf_of_places {key : Nat} {e : Event} {out : Outlet} {outcome : PushOutcome} {q : Queue}
    (hout : outlets[key]? = some out) (hopen : out.queue.closed = false)
    (hplaces : Queue.Places out.queue.capacity out.queue.events e outcome q.events) :
    fateOf outlets (setOutlet outlets key { out with queue := q }) key e
      = if outcome.accepts then .entered else .discarded := by
  have hlt : key < outlets.length := (List.getElem?_eq_some_iff.mp hout).1
  have hset : (setOutlet outlets key { out with queue := q })[key]?
      = some { out with queue := q } := by
    rw [setOutlet, List.getElem?_set_self hlt]
  simp only [fateOf, hout, hset, hopen, Bool.false_eq_true, if_false]
  rcases hplaces.kept with ⟨haccepts, hsame⟩ | ⟨haccepts, kept, hkept, -⟩
  · rw [haccepts, if_neg Bool.false_ne_true, if_neg]
    intro hlast
    obtain ⟨⟨-, -, hlasting⟩, hmove⟩ := crowded_of_places hopen hplaces haccepts
    rw [hlasting e (List.mem_of_getLast? (hsame ▸ hlast))] at hmove
    nomatch hmove
  · rw [haccepts, hkept, List.getLast?_concat, if_pos rfl, if_pos rfl]

/-- **A turn is one of these.** -/
theorem turns_meet (p : Pump) (s : Scene) : p.Turns s (p.meet s) (p.settled? s) := by
  unfold meet settled?
  rcases hstep : p.step s.registry s.pin s.outlets with - | ⟨p', outlets'⟩
  · exact .rests
  simp only [Option.map_some, Option.getD_some]
  cases moves_of_step hstep with
  | passes hheld hcoming =>
    simp only [hheld, hcoming, note, Option.isNone_none, if_true, List.head?_cons, Option.map_some]
    exact .turnsAway (by simp [remaining, hheld, hcoming]) (count_note _ _)
  | misses hheld hcoming =>
    simp only [hheld, hcoming, note, Option.isNone_none, if_true, List.head?_cons, Option.map_some]
    exact .turnsAway (by simp [remaining, hheld, hcoming]) (count_note _ _)
  | takes hheld hcoming =>
    simp only [hheld, Option.isNone_some, Bool.false_eq_true, if_false]
    exact .takes (by simp [remaining, hheld, hcoming]) rfl
  | fails hheld hclosed =>
    simp only [hheld, fateOf_of_closed hclosed]
    exact .turnsAway (by simp [remaining, note, hheld]) (count_note _ _)
  | @hands e id key out outcome q hheld hout hopen hplaces =>
    have hremaining : p.remaining = e :: (p.note (.pushed outcome)).remaining := by
      simp [remaining, note, hheld]
    simp only [hheld, fateOf_of_places hout hopen hplaces]
    cases haccepts : outcome.accepts with
    | true => exact .enters hremaining (count_note _ _)
    | false =>
      obtain ⟨hcrowded, hmove⟩ := crowded_of_places hopen hplaces haccepts
      exact .discards hheld hremaining (count_note _ _) hout hcrowded hmove

/-! ## The count -/

theorem course_cons (p : Pump) (s : Scene) (scenes : List Scene) :
    p.course (s :: scenes) = (p.meet s).course scenes := List.foldl_cons ..

/-- The events of a pump are those that it is done with and then those that remain, in order. -/
theorem fates_remaining (p : Pump) (scenes : List Scene) :
    (p.fates scenes).map Prod.fst ++ (p.course scenes).remaining = p.remaining := by
  induction scenes generalizing p with
  | nil => rfl
  | cons s scenes ih =>
    rw [fates, course_cons, List.map_append, List.append_assoc, ih]
    have hturns := p.turns_meet s
    generalize p.meet s = p' at hturns ⊢
    generalize p.settled? s = settled at hturns ⊢
    cases hturns with
    | rests => rfl
    | takes hremaining => exact hremaining
    | turnsAway hremaining | enters hremaining | discards _ hremaining => exact hremaining.symm

/-- Each turn that ends with an event in a queue, or discarded by one, is counted. -/
theorem count_course (p : Pump) (scenes : List Scene) :
    (p.course scenes).count = p.count + (p.fates scenes).countP (·.2 = .entered)
      + (p.fates scenes).countP (·.2 = .discarded) := by
  induction scenes generalizing p with
  | nil => rfl
  | cons s scenes ih =>
    rw [fates, course_cons, ih, List.countP_append, List.countP_append]
    have hturns := p.turns_meet s
    generalize p.meet s = p' at hturns ⊢
    generalize p.settled? s = settled at hturns ⊢
    cases hturns with
    | rests => simp
    | takes _ hcount | turnsAway _ hcount => simp [hcount]
    | enters _ hcount | discards _ _ hcount =>
      simp [hcount]
      omega

/-- **A pump counts what it has discarded.** Whatever it meets, the events that it is done with and
those that remain are the captured ones, in order. It counts those that entered a queue together
with those that were discarded, and none that was turned away. What is discarded is a pointer move
that met an open queue full of other events. -/
theorem counts_discarded (events : List Event) (scenes : List Scene) :
    let p := (start events).course scenes
    let fates := (start events).fates scenes
    fates.map Prod.fst ++ p.remaining = events ∧
    p.count = fates.countP (·.2 = .entered) + fates.countP (·.2 = .discarded) ∧
    ∀ before s after e, scenes = before ++ s :: after →
      ((start events).course before).settled? s = some (e, .discarded) →
      e.isMove = true ∧ ∃ id key out, ((start events).course before).held = some (e, id, key) ∧
        s.outlets[key]? = some out ∧ Crowded out.queue := by
  intro p fates
  refine ⟨fates_remaining _ _, ?_, fun before s after e _ hsettled ↦ ?_⟩
  · rw [count_course, Nat.add_assoc]
    exact Nat.zero_add _
  · have hturns := ((start events).course before).turns_meet s
    rw [hsettled] at hturns
    generalize ((start events).course before).meet s = p' at hturns
    cases hturns with
    | discards hheld _ _ hout hcrowded hmove => exact ⟨hmove, _, _, _, hheld, hout, hcrowded⟩

/-- A key and a move are captured for a session whose queue has room for one event. Only the key
enters the queue, and two are counted. -/
theorem counts_discarded_move :
    let key : Event := .key 4 true ⟨0⟩ 0
    let move : Event := .move 1 1 0
    let id : SessionId := ⟨⟨List.replicate 16 7, rfl⟩⟩
    let peer : Identity := ⟨⟨List.replicate 16 8, rfl⟩, "laptop", 0⟩
    let r : Registry := ⟨[⟨.start id peer ⟨1, 0⟩ 0, some 0⟩], 0, 1⟩
    let vacant : Scene := ⟨r, none, [.new 1]⟩
    let crowded : Scene := ⟨r, none, [⟨⟨1, [key], false, ⟨1, 0, 0⟩⟩, .new⟩]⟩
    let scenes := [vacant, vacant, crowded, crowded]
    (start [key, move]).fates scenes = [(key, .entered), (move, .discarded)] ∧
      ((start [key, move]).course scenes).finished = true ∧
      ((start [key, move]).course scenes).count = 2 := by
  intro key move id peer r vacant crowded scenes
  have hfates : (start [key, move]).fates scenes = [(key, .entered), (move, .discarded)] := by
    decide +kernel
  obtain ⟨-, hcount, -⟩ := counts_discarded [key, move] scenes
  rw [hfates] at hcount
  exact ⟨hfates, by decide +kernel, hcount⟩

end Pump

end Server

end DeskLink
