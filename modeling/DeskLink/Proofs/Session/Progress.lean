import DeskLink.Proofs.Heartbeat.Moves
import DeskLink.Proofs.Session.Moves

/-!
# What a session reports only grows

A session reports how far its link has counted and when the other side was last known to be there,
and it does so whenever an acknowledgement comes, whether its monitor takes any notice of it or not.
So a report says nothing about the acknowledgement; it says where the worker stands
(`report_of_does`). And what it says there can only grow, by any move (`grows_of_does`).
-/

namespace DeskLink

/-- A receipt may raise the greatest accepted number, and does not lower it. -/
theorem Link.inbound_le_of_receive {l l' : Link} {reply : ReadReply} {arrival : Link.Arrival}
    (h : l.receive reply = (arrival, l')) : l.inbound.lastSeen ≤ l'.inbound.lastSeen := by
  have hreceives := Link.receives_of_receive h
  cases hreceives with
  | passed _ _ _ hseq => exact UInt32.le_of_lt hseq
  | blocked | read | lost | malformed | unknown | dropped => exact UInt32.le_refl _

namespace Session

def Effect.report? : Effect → Option Snapshot
  | .progress s => some s
  | _ => .none

namespace Worker

/-- From the first to the second, a worker has not counted back, and what it knows about the other
side is as old as it was or of now. -/
structure Grows (w : Worker) (now : Instant) (w' : Worker) : Prop where
  outbound_le : w.link.outbound.last ≤ w'.link.outbound.last
  inbound_le : w.link.inbound.lastSeen ≤ w'.link.inbound.lastSeen
  heard : w'.monitor.lastAck = w.monitor.lastAck ∨ w'.monitor.lastAck = now

variable {w w' : Worker} {o : Offer} {effect : Effect} {now : Instant}

theorem grows_of_eq (houtbound : w'.link.outbound = w.link.outbound)
    (hinbound : w'.link.inbound = w.link.inbound) (hmonitor : w'.monitor = w.monitor) :
    w.Grows now w' where
  outbound_le := houtbound ▸ UInt32.le_refl _
  inbound_le := hinbound ▸ UInt32.le_refl _
  heard := .inl (congrArg _ hmonitor)

/-- What came before, with the link and the monitor as they were, makes no difference. -/
theorem Grows.of_received {link : Link} {reply : ReadReply} {arrival : Link.Arrival}
    (hreceive : w.link.receive reply = (arrival, link)) (h : Grows { w with link } now w') :
    w.Grows now w' := by
  have hinbound := Link.inbound_le_of_receive hreceive
  obtain ⟨_, _, _, rfl⟩ := Link.outgoing_receive hreceive
  exact ⟨h.outbound_le, UInt32.le_trans hinbound h.inbound_le, h.heard⟩

private theorem Grows.of_monitor {monitor : Heartbeat.Monitor}
    (hheard : monitor.lastAck = w.monitor.lastAck) (h : Grows { w with monitor } now w') :
    w.Grows now w' :=
  ⟨h.outbound_le, h.inbound_le, hheard ▸ h.heard⟩

private theorem grows_received {link : Link} {reply : ReadReply} {arrival : Link.Arrival}
    (hreceive : w.link.receive reply = (arrival, link)) : w.Grows now { w with link } :=
  .of_received hreceive (grows_of_eq rfl rfl rfl)

theorem grows_send (w : Worker) (m : Message) (now : Instant) : w.Grows now (w.send m) := by
  have hsends := w.sends m
  generalize w.send m = w' at hsends
  cases hsends with
  | begins hseq => exact ⟨UInt32.le_of_lt hseq, UInt32.le_refl _, .inl rfl⟩
  | refuses hle => exact ⟨hle, UInt32.le_refl _, .inl rfl⟩

private theorem grows_beat (w : Worker) (now : Instant) : w.Grows now (w.beat now) := by
  have hpolls := w.monitor.polls now
  unfold beat
  generalize w.monitor.poll now = polled at hpolls
  obtain ⟨due, after⟩ := polled
  cases hpolls with
  | stale | waits => exact grows_of_eq rfl rfl rfl
  | beats =>
    -- The monitor notes the heartbeat before it is sent, and nothing about the other side.
    refine .of_monitor ?_ (grows_send _ _ now)
    rfl

private theorem grows_handle (w : Worker) (o : Offer) (m : Message) :
    w.Grows o.now (w.handle o m).1 := by
  cases m with
  | heartbeat token => exact w.grows_send _ _
  | heartbeatAck token =>
    have hacks := w.monitor.acks token.toNat o.now
    refine ⟨UInt32.le_refl _, UInt32.le_refl _, ?_⟩
    simp only [handle]
    generalize w.monitor.onAck token.toNat o.now = answered at hacks
    obtain ⟨rtt, monitor⟩ := answered
    cases hacks with
    | ignores => exact .inl rfl
    | measures | revives => exact .inr rfl
  | input _ | close _ | report _ | hello _ | auth _ | authResult _ => exact grows_of_eq rfl rfl rfl

theorem Parts.grows {e : Ending} (h : w.Parts now e w') : w.Grows now w' := by
  cases h with
  | silent => exact grows_of_eq rfl rfl rfl
  | begins _ hseq => exact ⟨UInt32.le_of_lt hseq, UInt32.le_refl _, .inl rfl⟩
  | refuses _ hle => exact ⟨hle, UInt32.le_refl _, .inl rfl⟩

/-- **No move counts back.** -/
theorem grows_of_does (h : w.Does o w' effect) : w.Grows o.now w' := by
  cases h with
  | obeys | abandoned | stalls | writes | completes | breaks | bids | parted | abandons | shuts =>
    exact grows_of_eq rfl rfl rfl
  | beats => exact w.grows_beat o.now
  | reads _ hreceive | skips _ hreceive => exact grows_received hreceive
  | deafened _ hreceive => exact .of_received hreceive (grows_of_eq rfl rfl rfl)
  | hears _ hreceive => exact .of_received hreceive (grows_handle _ o _)
  | forwards => exact w.grows_send _ _
  | parts _ hparts => exact hparts.grows

private theorem report_of_handle {m : Message} {s : Snapshot}
    (hreport : (w.handle o m).2.report? = some s) : s = (w.handle o m).1.snapshot s.rtt := by
  cases m with
  | heartbeatAck token =>
    obtain rfl := Option.some.inj hreport
    rfl
  | input _ | heartbeat _ | close _ | report _ | hello _ | auth _ | authResult _ => nomatch hreport

/-- **A report says where the worker stands** after the move that makes it. -/
theorem report_of_does (h : w.Does o w' effect) {s : Snapshot} (hreport : effect.report? = some s) :
    s = w'.snapshot s.rtt := by
  cases h with
  | hears => exact report_of_handle hreport
  | _ => nomatch hreport

end Worker

end Session

end DeskLink
