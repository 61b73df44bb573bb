import DeskLink.Proofs.Input.Waking

/-!
# The books of a queue

Every act at a queue either leaves it alone or is one push, one pop or one closing of it, whoever
does it and however long it took to get there. `Queue.Turn` says so, and forgets the tasks.

From what the turns tell, the whole queue can be accounted for: what was accepted is what has been
popped, what still waits and what closing discarded, in this order, with nothing missing but moves;
and the counters name exactly the moves that are missing.
-/

namespace DeskLink

/-- What an errand is told by a queue that is closed. -/
def Errand.refusal : Errand → ErrandResult
  | .push e => .refused (.closed e)
  | .pop => .popped none

namespace SharedQueue

/-! ## What happenings tell -/

namespace Happening

def accepted? : Happening → Option Event
  | .answered (.push e) (.pushed outcome) => if outcome.accepts then some e else none
  | _ => none

def popped? : Happening → Option Event
  | .answered .pop (.popped e) => e
  | _ => none

/-- The events that closing has discarded. -/
def discards : Happening → List Event
  | .closed events => events
  | _ => []

/-- Whether a push succeeded. A move may be discarded by a push that succeeds. -/
def pushes : Happening → Bool
  | .answered (.push _) (.pushed _) => true
  | _ => false

end Happening

def accepted (log : List Happening) : List Event := log.filterMap Happening.accepted?

def popped (log : List Happening) : List Event := log.filterMap Happening.popped?

/-- What was discarded by closing, in order. -/
def discarded (log : List Happening) : List Event := log.flatMap Happening.discards

def pushes (log : List Happening) : Nat := log.countP Happening.pushes

@[simp] theorem accepted_concat (log : List Happening) (x : Happening) :
    accepted (log ++ [x]) = accepted log ++ x.accepted?.toList := by
  cases hx : x.accepted? <;> simp [accepted, hx]

@[simp] theorem popped_concat (log : List Happening) (x : Happening) :
    popped (log ++ [x]) = popped log ++ x.popped?.toList := by
  cases hx : x.popped? <;> simp [popped, hx]

@[simp] theorem discarded_concat (log : List Happening) (x : Happening) :
    discarded (log ++ [x]) = discarded log ++ x.discards := by
  simp [discarded]

@[simp] theorem pushes_concat (log : List Happening) (x : Happening) :
    pushes (log ++ [x]) = pushes log + if x.pushes then 1 else 0 := by
  simp [pushes]

end SharedQueue

/-! ## Turns -/

namespace Queue

open SharedQueue

/-- What an act is to the queue alone. -/
inductive Turn (q : Queue) : Option Happening → Queue → Prop where
  | rests : Turn q none q
  | takes {e : Event} {outcome : PushOutcome} {q' : Queue} (h : q.tryPush e = .ok (outcome, q')) :
      Turn q (some (.answered (.push e) (.pushed outcome))) q'
  | refuses {e : Event} {why : PushError} (h : q.tryPush e = .error why) :
      Turn q (some (.answered (.push e) (.refused why))) q
  | gives {e : Event} {q' : Queue} (h : q.tryPop = some (e, q')) :
      Turn q (some (.answered .pop (.popped (some e)))) q'
  | hasNone (h : q.tryPop = none) : Turn q (some (.answered .pop (.popped none))) q
  | closes : Turn q (some (.closed q.events)) q.close.2

end Queue

namespace SharedQueue

variable {s s' : SharedQueue} {errand : Errand} {r : ErrandResult}

theorem Answers.turn (h : s.Answers errand r s') :
    s.queue.Turn (some (.answered errand r)) s'.queue := by
  cases h with
  | @takes _ _ queue hpush _ =>
    have hqueue := queue_ring { s with queue } .consumers
    exact hqueue ▸ .takes hpush
  | drops hpush => exact .takes hpush
  | turnsAway hclosed => exact .refuses (if_pos hclosed)
  | @gives _ queue hpop =>
    have hqueue := queue_ring { s with queue } .producers
    exact hqueue ▸ .gives hpop
  | ends _ hempty =>
    refine .hasNone ?_
    rw [Queue.tryPop, hempty]

theorem Lacks.turn (h : s.Lacks errand) :
    s.queue.Turn (some (.answered errand errand.vain)) s.queue := by
  cases h with
  | place hopen hplace =>
    refine .refuses ?_
    rw [Queue.tryPush, if_neg (Bool.eq_false_iff.mp hopen), hplace]
  | event _ hempty =>
    refine .hasNone ?_
    rw [Queue.tryPop, hempty]

/-- **An act is a turn of the queue.** -/
theorem turn_act (s : SharedQueue) (a : Act) :
    s.queue.Turn (s.act a).1 (s.act a).2.queue := by
  generalize hafter : (s.act a).2 = s'
  have hdoes := s.does_act a
  rw [hafter] at hdoes
  generalize (s.act a).1 = happening at hdoes
  cases hdoes with
  | nothing => exact .rests
  | tries hanswers => exact hanswers.turn
  | triesInVain hlacks => exact hlacks.turn
  | closes =>
    have hqueue : s.close.2.queue = s.queue.close.2 := by
      rw [close_eq]
    exact hqueue ▸ .closes
  | starts _ => exact .rests
  | finishes _ _ hanswers => exact hanswers.turn
  | @waits id t _ _ _ =>
    have hqueue : (((s.busy id).usePermit t.errand).wait id t.errand).queue = s.queue := by
      rw [wait_eq, usePermit_eq]
      exact (queue_hang ..).trans (queue_hang ..)
    exact hqueue ▸ .rests
  | @cancels id t htask =>
    have hqueue : (s.cancel id).queue = s.queue := by
      rw [cancel_eq htask]
      split
      · exact queue_ring ..
      · rfl
    exact hqueue ▸ .rests

theorem Answers.eq_refusal (h : s.Answers errand r s') (hclosed : s.queue.closed = true)
    (hempty : s.queue.events = []) : r = errand.refusal := by
  cases h with
  | takes hpush _ => exact nomatch hclosed.symm.trans (Queue.of_tryPush hpush).1
  | drops hpush => exact nomatch hclosed.symm.trans (Queue.of_tryPush hpush).1
  | turnsAway => rfl
  | gives hpop =>
    obtain ⟨rest, hevents, -⟩ := Queue.of_tryPop hpop
    exact nomatch hempty.symm.trans hevents
  | ends => rfl

end SharedQueue

/-! ## The books -/

namespace Queue

open SharedQueue

variable {q q' : Queue} {happening : Option Happening} {log : List Happening}

theorem Turn.closed (h : q.Turn happening q') (hclosed : q.closed = true) : q'.closed = true := by
  cases h with
  | rests => exact hclosed
  | takes hpush => exact nomatch hclosed.symm.trans (of_tryPush hpush).1
  | refuses _ => exact hclosed
  | gives hpop =>
    obtain ⟨rest, -, rfl⟩ := of_tryPop hpop
    exact hclosed
  | hasNone _ => exact hclosed
  | closes => rfl

/-- The queue as it would be if what closing discarded still waited. -/
def undiscarded (q : Queue) (discarded : List Event) : Queue :=
  { q with events := q.events ++ discarded, closed := false }

theorem undiscarded_of_open (h : q.closed = false) : q.undiscarded [] = q := by
  obtain ⟨capacity, events, closed, stats⟩ := q
  obtain rfl : closed = false := h
  simp [undiscarded]

/-- What is in the books of a queue. -/
structure Books (q : Queue) (log : List Happening) : Prop where
  accounts : (q.undiscarded (discarded log)).Accounts (accepted log) (popped log)
  counted : pushes log = (popped log).length + (discarded log).length + q.events.length
    + q.stats.coalesced + q.stats.droppedMoves
  unbroken : q.closed = false → discarded log = []
  emptied : q.closed = true → q.events = []

private theorem books_new (capacity : Nat) : (new capacity).Books [] :=
  ⟨accounts_new capacity, rfl, fun _ ↦ rfl, nofun⟩

namespace Books

theorem takes {e : Event} {outcome : PushOutcome} (h : q.Books log)
    (hpush : q.tryPush e = .ok (outcome, q')) :
    q'.Books (log ++ [.answered (.push e) (.pushed outcome)]) := by
  obtain ⟨hopen, hplaces, hq'⟩ := of_tryPush hpush
  have hopen' : q'.closed = false := hq' ▸ hopen
  have hnothing := h.unbroken hopen
  constructor
  · have haccounts := h.accounts
    rw [hnothing, undiscarded_of_open hopen] at haccounts
    have hpushed := haccounts.push hpush
    have hpopped : popped (log ++ [.answered (.push e) (.pushed outcome)]) = popped log := by
      simp [Happening.popped?]
    have hdiscarded : discarded (log ++ [.answered (.push e) (.pushed outcome)]) = [] := by
      simp [Happening.discards, hnothing]
    have haccepted : accepted (log ++ [.answered (.push e) (.pushed outcome)]) =
        if outcome.accepts then accepted log ++ [e] else accepted log := by
      rw [accepted_concat, Happening.accepted?]
      split <;> simp
    rw [haccepted, hpopped, hdiscarded, undiscarded_of_open hopen']
    exact hpushed
  · have hcounted := h.counted
    have hstats : q'.stats = q.stats.count outcome := hq' ▸ rfl
    simp only [pushes_concat, popped_concat, discarded_concat, Happening.pushes, Happening.popped?,
      Happening.discards, hnothing, hstats] at hcounted ⊢
    generalize q'.events = events at hplaces ⊢
    cases hplaces <;> grind [QueueStats.count]
  · intro _
    rw [discarded_concat, hnothing]
    rfl
  · intro hclosed
    exact nomatch hopen'.symm.trans hclosed

theorem gives {e : Event} (h : q.Books log) (hpop : q.tryPop = some (e, q')) :
    q'.Books (log ++ [.answered .pop (.popped (some e))]) := by
  obtain ⟨rest, hevents, rfl⟩ := of_tryPop hpop
  constructor
  · have hwaiting : (q.undiscarded (discarded log)).events = e :: (rest ++ discarded log) := by
      rw [undiscarded, hevents, List.cons_append]
    have hpopped := h.accounts.pop hwaiting
    simpa [Happening.accepted?, Happening.popped?, Happening.discards, undiscarded] using hpopped
  · have hcounted := h.counted
    rw [hevents] at hcounted
    simp only [pushes_concat, popped_concat, discarded_concat, Happening.pushes,
      Happening.popped?, Happening.discards, List.length_append, List.length_cons,
      Option.toList_some, List.length_nil] at hcounted ⊢
    grind
  · intro hopen
    rw [discarded_concat, h.unbroken hopen]
    rfl
  · intro hclosed
    exact nomatch hevents.symm.trans (h.emptied hclosed)

theorem closes (h : q.Books log) : q.close.2.Books (log ++ [.closed q.events]) := by
  constructor
  · have hsame : q.close.2.undiscarded (discarded log ++ q.events) =
        q.undiscarded (discarded log) := by
      cases hclosed : q.closed with
      | false => simp [undiscarded, close, h.unbroken hclosed]
      | true => simp [undiscarded, close, h.emptied hclosed]
    have haccounts := h.accounts
    rw [← hsame] at haccounts
    simpa [Happening.accepted?, Happening.popped?, Happening.discards] using haccounts
  · have hcounted := h.counted
    simp only [pushes_concat, popped_concat, discarded_concat, Happening.pushes,
      Happening.popped?, Happening.discards, List.length_append, close]
    grind
  · nofun
  · exact fun _ ↦ rfl

theorem ignores {x : Happening} (h : q.Books log) (haccepted : x.accepted? = none)
    (hpopped : x.popped? = none) (hdiscards : x.discards = []) (hpushes : x.pushes = false) :
    q.Books (log ++ [x]) := by
  have hlog : accepted (log ++ [x]) = accepted log ∧ popped (log ++ [x]) = popped log
      ∧ discarded (log ++ [x]) = discarded log ∧ pushes (log ++ [x]) = pushes log := by
    simp [haccepted, hpopped, hdiscards, hpushes]
  obtain ⟨haccepted, hpopped, hdiscarded, hpushes⟩ := hlog
  constructor
  · rw [haccepted, hpopped, hdiscarded]
    exact h.accounts
  · rw [hpopped, hdiscarded, hpushes]
    exact h.counted
  · rw [hdiscarded]
    exact h.unbroken
  · exact h.emptied

/-- **A turn is entered in the books.** -/
theorem turn (h : q.Books log) (hturn : q.Turn happening q') :
    q'.Books (log ++ happening.toList) := by
  cases hturn with
  | rests => exact (List.append_nil log).symm ▸ h
  | takes hpush => exact h.takes hpush
  | refuses _ => exact h.ignores rfl rfl rfl rfl
  | gives hpop => exact h.gives hpop
  | hasNone _ => exact h.ignores rfl rfl rfl rfl
  | closes => exact h.closes

end Books

end Queue

/-! ## Runs -/

namespace SharedQueue

variable {s : SharedQueue}

private theorem books_perform {log : List Happening} (h : s.queue.Books log) (acts : List Act) :
    (s.perform acts).2.queue.Books (log ++ (s.perform acts).1) := by
  induction acts generalizing s log with
  | nil => exact (List.append_nil log).symm ▸ h
  | cons a acts ih =>
    rw [perform, ← List.append_assoc]
    exact ih (h.turn (s.turn_act a))

private theorem eq_close_of_act {a : Act} {events : List Event}
    (h : (s.act a).1 = some (.closed events)) : a = .close := by
  cases a with
  | close => rfl
  | run id =>
    simp only [act] at h
    split at h
    · split at h
      · simp at h
      · simp at h
    · simp at h
  | tryPush | tryPop | start | cancel => simp [act] at h

private theorem closed_act_iff (s : SharedQueue) (a : Act) :
    (s.act a).2.queue.closed = true ↔ s.queue.closed = true ∨ a = .close := by
  have hturn := s.turn_act a
  constructor
  · intro hclosed
    generalize (s.act a).2.queue = q' at hturn hclosed
    generalize hhappening : (s.act a).1 = happening at hturn
    cases hturn with
    | rests => exact .inl hclosed
    | takes hpush => exact .inl (Queue.closed_of_tryPush hpush ▸ hclosed)
    | refuses _ => exact .inl hclosed
    | gives hpop =>
      obtain ⟨rest, -, rfl⟩ := Queue.of_tryPop hpop
      exact .inl hclosed
    | hasNone _ => exact .inl hclosed
    | closes => exact .inr (eq_close_of_act hhappening)
  · rintro (hclosed | rfl)
    · exact hturn.closed hclosed
    · simp only [act, close_eq]
      rfl

private theorem closed_perform_iff (s : SharedQueue) (acts : List Act) :
    (s.perform acts).2.queue.closed = true ↔ s.queue.closed = true ∨ .close ∈ acts := by
  induction acts generalizing s with
  | nil => simp [perform]
  | cons a acts ih =>
    simp only [perform, ih, closed_act_iff, List.mem_cons, or_assoc, @eq_comm _ a]

private theorem eq_refusal_of_act {a : Act} {errand : Errand} {r : ErrandResult}
    (hclosed : s.queue.closed = true) (hempty : s.queue.events = [])
    (h : (s.act a).1 = some (.answered errand r)) : r = errand.refusal := by
  have hdoes := s.does_act a
  rw [h] at hdoes
  generalize (s.act a).2 = s' at hdoes
  cases hdoes with
  | tries hanswers => exact hanswers.eq_refusal hclosed hempty
  | triesInVain hlacks => exact nomatch hclosed.symm.trans hlacks.openings_eq.1
  | finishes _ _ hanswers => exact hanswers.eq_refusal hclosed hempty

private theorem task?_of_mem {t : QueueTask} (hunique : (s.tasks.map (·.id)).Nodup)
    (ht : t ∈ s.tasks) : s.task? t.id = some t := by
  cases htask : s.task? t.id with
  | none => exact absurd (beq_self_eq_true t.id) (List.find?_eq_none.mp htask t ht)
  | some u =>
    obtain ⟨hu, hid⟩ := task?_eq_some htask
    rw [QueueTask.eq_of_id_eq hunique ht hu hid]

/-- Whoever has come before a queue was closed is able to run, and is refused. -/
theorem refused_of_run {t : QueueTask} (h : Sound (fun _ ↦ 0) s) (hclosed : s.queue.closed = true)
    (ht : t ∈ s.tasks) : t.state ≠ .waiting ∧
      (s.act (.run t.id)).1 = some (.answered t.errand t.errand.refusal) := by
  obtain ⟨hempty, hnobody⟩ := h.deserted hclosed
  have hable : t.state ≠ .waiting := by
    intro hstate
    have hlisted := (h.listed t.errand.side t.id).mpr ⟨t, ht, rfl, rfl, hstate⟩
    rw [hnobody] at hlisted
    exact List.not_mem_nil hlisted
  have htask := task?_of_mem h.unique ht
  refine ⟨hable, ?_⟩
  simp only [act, htask, if_neg hable, runTask_eq htask]
  rcases (s.busy t.id).look_cases t.id t.errand with ⟨r, s', hanswers, hlook⟩ | ⟨hlacks, -⟩
  · rw [hlook, hanswers.eq_refusal hclosed hempty]
    rfl
  · exact absurd (hclosed.symm.trans hlacks.openings_eq.1) Bool.noConfusion

/-- **The books balance.** What was popped, what waits and what closing discarded is, in this order,
what was accepted with some moves left out; the counters name the moves; whoever is refused gets the
event back and has changed nothing; and after closing there is nothing left to take or to give. -/
theorem books_balance (capacity : Nat) (acts : List Act) :
    let log := ((new capacity).perform acts).1
    let s := ((new capacity).perform acts).2
    (popped log ++ s.queue.events ++ discarded log).Sublist (accepted log) ∧
    (lasting (popped log ++ s.queue.events ++ discarded log) = lasting (accepted log) ∧
      (s.queue.closed = false → discarded log = [])) ∧
    (∀ a e why, (s.act a).1 = some (.answered (.push e) (.refused why)) →
      why.event = e ∧ (s.act a).2.queue = s.queue) ∧
    pushes log = (popped log).length + (discarded log).length + s.queue.events.length
      + s.queue.stats.coalesced + s.queue.stats.droppedMoves ∧
    (s.queue.closed = true ↔ .close ∈ acts) ∧
    (s.queue.closed = true → s.queue.events = [] ∧
      (∀ a errand r, (s.act a).1 = some (.answered errand r) → r = errand.refusal) ∧
      ∀ t ∈ s.tasks, t.state ≠ .waiting ∧
        (s.act (.run t.id)).1 = some (.answered t.errand t.errand.refusal)) := by
  intro log s
  have hbooks : s.queue.Books log := books_perform (s := new capacity) (Queue.books_new _) acts
  have hsound : Sound (fun _ ↦ 0) s := (sound_new capacity).perform acts
  have haccounts := hbooks.accounts
  refine ⟨?_, ⟨?_, hbooks.unbroken⟩, ?_, hbooks.counted, ?_, ?_⟩
  · rw [List.append_assoc]
    exact haccounts.sublist
  · rw [List.append_assoc]
    exact haccounts.lasting_eq rfl
  · -- A push can be refused for want of a place or by a closed queue; neither touches the events.
    intro a e why hact
    have hturn := s.turn_act a
    rw [hact] at hturn
    generalize (s.act a).2.queue = q' at hturn ⊢
    cases hturn with
    | refuses hpush =>
      rcases Queue.of_tryPush_error hpush with ⟨-, rfl⟩ | ⟨-, -, rfl⟩
      · exact ⟨rfl, rfl⟩
      · exact ⟨rfl, rfl⟩
  · refine (closed_perform_iff (new capacity) acts).trans ⟨?_, .inr⟩
    rintro (hclosed | hmem)
    · nomatch hclosed
    · exact hmem
  · intro hclosed
    have hempty := hbooks.emptied hclosed
    exact ⟨hempty, fun _ _ _ ↦ eq_refusal_of_act hclosed hempty,
      fun _ ht ↦ refused_of_run hsound hclosed ht⟩

/-- A full queue refuses a key and gives one, a move takes the place of another, and the rest is
discarded by closing while a producer waits. -/
theorem books_balance_closed :
    let key (code : UInt16) : Event := .key code true ⟨0⟩ 5
    let move (x : Int32) : Event := .move x 0 5
    let acts : List Act := [.tryPush (key 1), .tryPush (key 2), .start 7 (.push (key 3)), .run 7,
      .tryPop, .tryPush (move 4), .tryPush (move 5), .close]
    ∃ log s, log = ((new 1).perform acts).1 ∧ s = ((new 1).perform acts).2 ∧
      popped log = [key 1] ∧ discarded log = [move 5] ∧ accepted log = [key 1, move 4, move 5] ∧
      s.queue.events = [] ∧ (s.act (.run 7)).1 = some (.answered (.push (key 3))
        (.refused (.closed (key 3)))) ∧ (s.act (.run 7)).2.queue = s.queue := by
  intro key move acts
  have htasks : ((new 1).perform acts).2.tasks = [⟨7, .push (key 3), .ready true⟩] := by
    decide +kernel
  have ht : ⟨7, .push (key 3), .ready true⟩ ∈ ((new 1).perform acts).2.tasks := by
    simp [htasks]
  obtain ⟨-, -, hrefused, -, hclosed, hafter⟩ := books_balance 1 acts
  obtain ⟨hempty, -, hrun⟩ := hafter (hclosed.mpr (by simp [acts]))
  obtain ⟨-, hact⟩ := hrun _ ht
  obtain ⟨-, hsame⟩ := hrefused (.run 7) (key 3) (.closed (key 3)) hact
  have hlog : popped ((new 1).perform acts).1 = [key 1] ∧
      discarded ((new 1).perform acts).1 = [move 5] ∧
      accepted ((new 1).perform acts).1 = [key 1, move 4, move 5] := by decide +kernel
  exact ⟨_, _, rfl, rfl, hlog.1, hlog.2.1, hlog.2.2, hempty, hact, hsame⟩

end SharedQueue

end DeskLink
