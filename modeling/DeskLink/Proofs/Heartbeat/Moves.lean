import DeskLink.Session.Heartbeat

/-!
# What a monitor does

One list for each of the two calls of a monitor: what can come of a poll, and what can come of an
acknowledgement. A poll sends a heartbeat or changes nothing. An acknowledgement of a token that has
been issued proves that the other side is alive, whether it measures a round trip or not, and any
other is ignored.
-/

namespace DeskLink.Heartbeat

namespace Monitor

variable {m : Monitor} {token : Nat} {now : Instant}

/-- What can come of a poll. -/
inductive Polls (m : Monitor) (now : Instant) : Due → Monitor → Prop where
  | stale (hdue : m.staleAt ≤ now) : Polls m now (.stale (now - m.lastAck)) m
  | beats (hfresh : now < m.staleAt) (hdue : m.nextBeat ≤ now) :
      Polls m now (.beat (m.lastToken + 1))
        { m with
          lastToken := m.lastToken + 1
          outstanding := some (m.lastToken + 1, now)
          nextBeat := now + m.interval }
  | waits (hfresh : now < m.staleAt) (hearly : now < m.nextBeat) : Polls m now .nothing m

theorem polls (m : Monitor) (now : Instant) : m.Polls now (m.poll now).1 (m.poll now).2 := by
  unfold poll
  split
  · exact .stale ‹_›
  · split
    · exact .beats (Nat.lt_of_not_le ‹_›) ‹_›
    · exact .waits (Nat.lt_of_not_le ‹_›) (Nat.lt_of_not_le ‹_›)

/-- What can come of an acknowledgement. -/
inductive Acks (m : Monitor) (token : Nat) (now : Instant) : Option Duration → Monitor → Prop where
  | ignores (hunissued : token = 0 ∨ m.lastToken < token) : Acks m token now none m
  | measures {sent : Instant} (hissued : ¬ (token = 0 ∨ m.lastToken < token))
      (hopen : m.outstanding = some (token, sent)) :
      Acks m token now (some (now - sent))
        { m with lastAck := now, outstanding := none, lastRtt := some (now - sent) }
  /-- It proves that the other side is alive, and measures nothing. -/
  | revives (hissued : ¬ (token = 0 ∨ m.lastToken < token))
      (hopen : ∀ sent, m.outstanding ≠ some (token, sent)) :
      Acks m token now none { m with lastAck := now }

theorem acks (m : Monitor) (token : Nat) (now : Instant) :
    m.Acks token now (m.onAck token now).1 (m.onAck token now).2 := by
  unfold onAck
  split
  · exact .ignores ‹_›
  · dsimp only
    rename_i hissued
    split
    · rename_i expected sent hopen
      split
      · rename_i hexpected
        exact .measures hissued (hexpected ▸ hopen)
      · rename_i hexpected
        refine .revives hissued fun other hother ↦ hexpected ?_
        exact (Prod.mk.inj (Option.some.inj (hopen.symm.trans hother))).1
    · rename_i hopen
      exact .revives hissued fun other hother ↦ nomatch hopen.symm.trans hother

end Monitor

end DeskLink.Heartbeat
