import DeskLink.Proofs.Session.Directions

/-!
# How a session leaves

A session takes leave in three steps, always in this order: it leaves its loop, it closes its queue,
and it shuts its stream, after which nobody takes its commands. What the others find of it follows
from how many of these steps it has taken, and the effect of a move says which of them it takes.
-/

namespace DeskLink.Session

namespace Worker

/-- How many of the steps of its leave a session has taken. -/
def leave (w : Worker) : Nat :=
  match w.phase with
  | .waiting | .sending _ => 0
  | .ending _ => 1
  | .parting .. | .shutting _ => 2
  | .ended _ => 3

/-- How the session ends, once it has left its loop. -/
def ending? (w : Worker) : Option Ending :=
  match w.phase with
  | .waiting | .sending _ => none
  | .ending e | .parting _ _ e | .shutting e | .ended e => some e

variable {w w' : Worker} {o : Offer} {effect : Effect}

theorem phase_of_result? {e : Ending} (h : w.result? = some e) : w.phase = .ended e := by
  unfold result? at h
  cases hphase : w.phase with
  | ended => rw [hphase] at h; rw [Option.some.inj h]
  | waiting | sending | ending | parting | shutting => simp [hphase] at h

theorem leave_of_result? {e : Ending} (h : w.result? = some e) : w.leave = 3 := by
  rw [leave, phase_of_result? h]

theorem running_iff : w.Running ↔ w.leave = 0 := by
  unfold Running leave
  cases w.phase <;> simp

theorem running_of_ending? (h : w.ending? = none) : w.Running := by
  unfold ending? at h
  unfold Running
  cases hphase : w.phase with
  | waiting | sending => trivial
  | ending | parting | shutting | ended => simp [hphase] at h

theorem leave_send (w : Worker) (m : Message) : (w.send m).leave ≤ 1 := by
  have hsends := w.sends m
  generalize w.send m = w' at hsends ⊢
  cases hsends with
  | begins => exact Nat.zero_le 1
  | refuses => exact Nat.le_refl 1

private theorem leave_beat (hphase : w.phase = .waiting) (now : Instant) :
    (w.beat now).leave ≤ 1 := by
  unfold beat
  split
  rename_i due monitor _
  cases due with
  | nothing => simp [leave, hphase]
  | beat token => exact leave_send _ _
  | stale silent => exact Nat.le_refl 1

end Worker

/-- An effect leads a session from one step of its leave to another. -/
def Effect.Leads (before after : Nat) : Effect → Prop
  | .command => before = 0 ∧ after = 1
  | .closedQueue => before = 1 ∧ after = 2
  | .shut => before = 2 ∧ after = 3
  | _ => before = after ∨ before = 0 ∧ after = 1

namespace Worker

variable {w w' : Worker} {o : Offer} {effect : Effect}

/-- From its loop a session goes on in it or leaves it, unless it tells more. -/
theorem leads_of_le (hphase : w.phase = .waiting) (hle : w'.leave ≤ 1) :
    Effect.Leads w.leave w'.leave .none := by
  have hzero : w.leave = 0 := by rw [leave, hphase]
  rw [hzero]
  change 0 = w'.leave ∨ 0 = 0 ∧ w'.leave = 1
  omega

private theorem leads_handle (hphase : w.phase = .waiting) (o : Offer) (m : Message) :
    (w.handle o m).2.Leads w.leave (w.handle o m).1.leave := by
  cases m with
  | heartbeat token => exact leads_of_le hphase (leave_send w _)
  | close _ | report _ => exact leads_of_le hphase (Nat.le_refl 1)
  | input _ | heartbeatAck _ | hello _ | auth _ | authResult _ => exact .inl rfl

/-- **A session leaves step by step.** -/
theorem leads_of_does (h : w.Does o w' effect) : effect.Leads w.leave w'.leave := by
  cases h with
  | obeys hphase => simp [Effect.Leads, leave, hphase, finish]
  | abandoned hphase => exact .inl (by simp [leave, hphase])
  | beats hphase => exact leads_of_le hphase (leave_beat hphase _)
  | reads hlistens | skips hlistens => exact .inl (by simp [leave, hlistens.phase_eq])
  | @hears m link hlistens =>
    have hphase : ({ w with link } : Worker).phase = .waiting := hlistens.phase_eq
    exact leads_handle hphase o m
  | deafened hlistens => exact .inr (by simp [leave, hlistens.phase_eq, finish])
  | forwards hlistens => exact leads_of_le hlistens.phase_eq (leave_send w _)
  | stalls hphase | breaks hphase => exact .inr (by simp [leave, hphase, finish])
  | writes hphase | completes hphase => exact .inl (by simp [leave, hphase])
  | parts hphase hparts => cases hparts <;> simp [Effect.Leads, leave, hphase]
  | bids hphase | parted hphase | abandons hphase => exact .inl (by simp [leave, hphase])
  | shuts hphase => simp [Effect.Leads, leave, hphase]

end Worker

/-- A command is left behind the others, unless the mailbox is closed or has no room. -/
theorem Mailbox.post_cases (m : Mailbox) (reason : CloseReason) :
    (m.closed = true ∨ m.capacity ≤ m.waiting.length) ∧ (m.post reason).2 = m ∨
      (m.post reason).2 = { m with waiting := m.waiting ++ [reason] } := by
  unfold post
  split
  · exact .inl ⟨.inl ‹_›, rfl⟩
  split
  · exact .inl ⟨.inr ‹_›, rfl⟩
  · exact .inr rfl

namespace Outlet

theorem commands_hand (out : Outlet) (id : SessionId) (e : Event) :
    (out.hand id e).2.commands = out.commands := by
  unfold Outlet.hand
  split <;> rfl

theorem closed_hand (out : Outlet) (id : SessionId) (e : Event) :
    (out.hand id e).2.queue.closed = out.queue.closed := by
  unfold Outlet.hand
  split
  · rename_i hpush
    unfold Queue.tryPush at hpush
    split at hpush
    · nomatch hpush
    · split at hpush
      · obtain ⟨rfl, rfl⟩ := Prod.mk.inj (Except.ok.inj hpush)
        rfl
      · nomatch hpush
  · rfl
  · rfl

end Outlet

namespace Effect.Leads

variable {effect : Effect} {before after : Nat}

theorem eq_zero (h : effect.Leads before after) (hafter : after = 0) : before = 0 := by
  cases effect <;> simp only [Effect.Leads] at h <;> omega

theorem le_one (h : effect.Leads before after) (hbefore : before = 0) : after ≤ 1 := by
  cases effect <;> simp only [Effect.Leads] at h <;> omega

/-- Who closes the queue empties it, and before that nobody has taken leave. -/
theorem emptied {queue : Queue} {commands : Mailbox} (h : effect.Leads before after)
    (hafter : 2 ≤ after) (hqueue : 2 ≤ before → queue.closed = true ∧ queue.events = []) :
    (effect.applyOutlet ⟨queue, commands⟩).queue.closed = true ∧
      (effect.applyOutlet ⟨queue, commands⟩).queue.events = [] := by
  cases effect with
  | closedQueue => exact ⟨rfl, rfl⟩
  | popped =>
    obtain ⟨hclosed, hevents⟩ := hqueue (by simp only [Effect.Leads] at h; omega)
    exact ⟨hclosed, by simp [Effect.applyOutlet, hevents]⟩
  | _ => exact hqueue (by simp only [Effect.Leads] at h; omega)

end Effect.Leads

namespace Worker

variable {w w' : Worker} {o : Offer} {effect : Effect} {e : Ending}

theorem running_of_does (h : w.Does o w' effect) (hrunning : w'.Running) : w.Running :=
  running_iff.mpr ((leads_of_does h).eq_zero (running_iff.mp hrunning))

theorem ending?_of_does (h : w.Does o w' effect) (hending : w.ending? = some e) :
    w'.ending? = some e := by
  cases h with
  | obeys hphase | abandoned hphase | beats hphase => simp [ending?, hphase] at hending
  | reads hlistens | skips hlistens | hears hlistens | deafened hlistens | forwards hlistens =>
    simp [ending?, hlistens.phase_eq] at hending
  | stalls hphase | writes hphase | completes hphase | breaks hphase =>
    simp [ending?, hphase] at hending
  | parts hphase hparts =>
    simp only [ending?, hphase] at hending
    cases hparts <;> exact hending
  | bids hphase | parted hphase | abandons hphase | shuts hphase =>
    simp only [ending?, hphase] at hending
    exact hending

end Worker

end DeskLink.Session
