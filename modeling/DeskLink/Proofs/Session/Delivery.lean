import DeskLink.Proofs.Session.Pair

/-!
# Input is delivered

Producers push events at one end of a session, and the other end hands events to its injector.
Between the two are a queue that merges and evicts, a worker that also sends other things and may
end at any moment, a stream that takes and gives pieces of any size, and a link that drops what it
must not hand on. What comes out is nevertheless what was accepted, in that order and each event at
most once, with nothing left out but pointer moves, and, once the session ends, the events that were
accepted last.

The proof follows the letters on their way. A step of the sender changes what it is about to write
and what its queue holds (`Speaks`), one of the receiver what it has read and handed on (`Hears`),
and each of these leads from one list of letters to the next.
-/

namespace DeskLink.Session

namespace Pair

/-- The events at both ends are accounted for by letters on their way. -/
def Sound (id : SessionId) (p : Pair) : Prop :=
  ∃ letters missing lost,
    InFlight id p.sender.worker p.forth.buffered p.receiver.worker.link letters missing ∧
    Tallies p.sender.worker p.sender.outlet.queue p.sender.accepted p.receiver.injected letters lost

variable {id : SessionId} {p : Pair}

theorem sound_begin {s r : Terms} (h : Established id s.link r.link) (forth back : Nat) :
    (Pair.begin id s r forth back).Sound id := by
  exact ⟨[], [], [], h.inFlight rfl, ⟨Queue.accounts_new _, fun _ ↦ rfl, fun _ ↦ rfl⟩⟩

/-! ## The sender -/

private theorem Sound.sender_moves {p' : Pair} {o : Offer} {effect : Effect} (h : p.Sound id)
    (hspeaks : p.sender.worker.Speaks o p'.sender.worker effect)
    (hevent : o.event = p.sender.outlet.queue.events.head?)
    (hqueue : p'.sender.outlet = effect.applyOutlet p.sender.outlet)
    (haccepted : p'.sender.accepted = p.sender.accepted) (hreceiver : p'.receiver = p.receiver)
    (hforth : p'.forth.buffered = p.forth.buffered ++ effect.written) : p'.Sound id := by
  obtain ⟨letters, missing, lost, hflight, htallies⟩ := h
  unfold Sound
  rw [hqueue, haccepted, hreceiver, hforth]
  cases hspeaks with
  | continues hleaves hcontinues =>
    refine ⟨letters, missing, lost, hflight.continues hcontinues, ?_⟩
    rw [hleaves.queue_eq]
    exact htallies.mono hcontinues.running
  | givesUp hunsent hintact hrunning hlink =>
    refine ⟨letters, p.sender.worker.unsent ++ missing, lost, ?_,
      htallies.mono fun hw ↦ absurd hw hrunning⟩
    simpa only [Effect.written, List.append_nil] using hflight.givesUp hunsent hintact hlink
  | @tells m hm hbegins =>
    obtain ⟨x, rfl, hflight'⟩ := hflight.begins hbegins
    have hx := Letter.event?_eq_none_iff.mpr hm
    refine ⟨letters ++ [x], missing, lost, ?_, (htallies.tells hx).mono hbegins.running⟩
    simpa only [Effect.written, List.append_nil] using hflight'
  | @forwards e hrunning hhead hbegins =>
    obtain ⟨rest, hevents⟩ := List.head?_eq_some_iff.mp (hevent.symm.trans hhead)
    obtain ⟨x, hmessage, hflight'⟩ := hflight.begins hbegins
    have hx : x.event? = some e := by rw [Letter.event?, hmessage, Message.event?]
    refine ⟨letters ++ [x], missing, lost, ?_, ?_⟩
    · simpa only [Effect.written, List.append_nil] using hflight'
    · have hforwards := (htallies.forwards hrunning hevents hx).mono hbegins.running
      rw [Effect.applyOutlet, hevents]
      exact hforwards
  -- The event has left the queue and is in no letter. It is the last one, since the loop is over.
  | @loses e hover hhead hcontinues =>
    obtain ⟨rest, hevents⟩ := List.head?_eq_some_iff.mp (hevent.symm.trans hhead)
    refine ⟨letters, missing, lost ++ [e], hflight.continues hcontinues, ?_⟩
    rw [Effect.applyOutlet, hevents]
    exact htallies.loses hover hevents
  | leaves hover hcontinues =>
    refine ⟨letters, missing, lost, hflight.continues hcontinues, ?_⟩
    exact htallies.closes fun hrunning ↦ hover (hcontinues.running hrunning)
  | @bids m hover hm hbegins =>
    obtain ⟨x, rfl, hflight'⟩ := hflight.begins hbegins
    have hx := Letter.event?_eq_none_iff.mpr hm
    refine ⟨letters ++ [x], missing, lost, ?_, ?_⟩
    · simpa only [Effect.written, List.append_nil] using hflight'
    · exact (htallies.tells hx).closes fun hrunning ↦ hover (hbegins.running hrunning)

/-! ## The receiver -/

private theorem Sound.receiver_moves {p' : Pair} {o : Offer} {effect : Effect} (h : p.Sound id)
    (hhears : p.receiver.worker.Hears o p'.receiver.worker effect)
    (hbinding : p'.receiver.worker.link.binding = p.receiver.worker.link.binding)
    (hread : ∀ b, o.read = .data b → p.forth.buffered = b ++ p.forth.buffered.drop b.length)
    (hinjected : p'.receiver.injected = p.receiver.injected ++ effect.injected?.toList)
    (hsender : p'.sender = p.sender)
    (hforth : p'.forth.buffered = p.forth.buffered.drop effect.consumed) : p'.Sound id := by
  obtain ⟨letters, missing, lost, hflight, htallies⟩ := h
  unfold Sound
  rw [hsender, hinjected, hforth]
  cases hhears with
  | deaf hconsumed hnone hinbox =>
    refine ⟨letters, missing, lost, ?_, ?_⟩
    · rw [hconsumed]
      have hreader := congrArg Frame.Reader.buffered hinbox.1
      exact hflight.reads (b := []) (by simpa using hreader) hinbox.2 hbinding
    · simpa [hnone] using htallies
  | @reads b hdata hreader hinbound =>
    refine ⟨letters, missing, lost, ?_, ?_⟩
    · have hfront := hread b hdata
      rw [hfront] at hflight
      exact hflight.reads (congrArg Frame.Reader.buffered hreader) hinbound hbinding
    · simpa [Effect.injected?] using htallies
  -- What the receiver drops is a letter all the same, but one without an event.
  | skips htake hskip hreader hinbound =>
    obtain ⟨x, rest, rfl, rfl, hrest⟩ := hflight.takes htake
    have hx := hflight.event?_eq_none_of_skip List.mem_cons_self hskip
    refine ⟨rest, missing, lost, ?_, ?_⟩
    · exact hrest _ hreader (.inl hinbound) hbinding
    · have htakes := htallies.takes
      rw [hx] at htakes
      exact htakes
  | takes htake hdecode hreader hinbound hconsumed hevent =>
    obtain ⟨x, rest, rfl, rfl, hrest⟩ := hflight.takes htake
    obtain ⟨hseq, hx⟩ := Letter.of_decode hdecode
    refine ⟨rest, missing, lost, ?_, ?_⟩
    · rw [hconsumed]
      exact hrest _ hreader (.inr (hseq ▸ hinbound)) hbinding
    · rw [hevent, hx]
      exact htallies.takes

/-! ## Steps and runs -/

theorem Sound.atSender (h : p.Sound id) (happening : Happening) :
    (p.step (.atSender happening)).Sound id := by
  obtain ⟨letters, missing, lost, hflight, htallies⟩ := h
  cases happening with
  | push e =>
    simp only [step, Party.happens]
    split
    · exact ⟨letters, missing, lost, hflight, htallies.push ‹_›⟩
    · exact ⟨letters, missing, lost, hflight, htallies⟩
  | command reason => exact ⟨letters, missing, lost, hflight, htallies⟩
  | abandon => exact ⟨letters, missing, lost, hflight, htallies⟩
  | fetch most =>
    simp only [step, Party.happens]
    split
    · rename_i b _
      have hcontinues := p.sender.worker.continues_fed b
      have hflight' := hflight.continues hcontinues
      rw [List.append_nil] at hflight'
      exact ⟨letters, missing, lost, hflight', htallies.mono hcontinues.running⟩
    · exact ⟨letters, missing, lost, hflight, htallies⟩
  | move c =>
    cases hstep : p.sender.worker.step (c.offer p.sender.outlet ⟨p.back, p.forth⟩) with
    | none =>
      simp only [step, Party.happens, hstep]
      exact ⟨letters, missing, lost, hflight, htallies⟩
    | some moved =>
      obtain ⟨w, effect⟩ := moved
      have hspeaks := Worker.speaks_of_does (Worker.does_step hstep)
      have hforth := effect.buffered_outgoing_apply ⟨p.back, p.forth⟩
      simp only [step, Party.happens, hstep]
      exact Sound.sender_moves ⟨letters, missing, lost, hflight, htallies⟩ hspeaks rfl rfl rfl rfl
        hforth

theorem Sound.atReceiver (h : p.Sound id) (happening : Happening) :
    (p.step (.atReceiver happening)).Sound id := by
  obtain ⟨letters, missing, lost, hflight, htallies⟩ := h
  cases happening with
  | push e =>
    simp only [step, Party.happens]
    split
    · exact ⟨letters, missing, lost, hflight, htallies⟩
    · exact ⟨letters, missing, lost, hflight, htallies⟩
  | command reason => exact ⟨letters, missing, lost, hflight, htallies⟩
  | abandon => exact ⟨letters, missing, lost, hflight, htallies⟩
  | fetch most =>
    simp only [step, Party.happens]
    split
    · rename_i b hread
      refine ⟨letters, missing, lost, ?_, htallies⟩
      rw [Pipe.buffered_of_read hread] at hflight
      exact hflight.reads rfl rfl rfl
    · exact ⟨letters, missing, lost, hflight, htallies⟩
  | move c =>
    cases hstep : p.receiver.worker.step (c.offer p.receiver.outlet ⟨p.forth, p.back⟩) with
    | none =>
      simp only [step, Party.happens, hstep]
      exact ⟨letters, missing, lost, hflight, htallies⟩
    | some moved =>
      obtain ⟨w, effect⟩ := moved
      have hdoes := Worker.does_step hstep
      have hbinding := Worker.binding_of_speaks (Worker.speaks_of_does hdoes)
      have hforth := effect.buffered_incoming_apply ⟨p.forth, p.back⟩
      simp only [step, Party.happens, hstep]
      exact Sound.receiver_moves ⟨letters, missing, lost, hflight, htallies⟩
        (Worker.hears_of_does hdoes) hbinding (fun _ ↦ Pipe.buffered_of_read) rfl rfl hforth

theorem Sound.run (h : p.Sound id) (steps : List Step) : (p.run steps).Sound id := by
  induction steps generalizing p with
  | nil => exact h
  | cons step steps ih =>
    cases step with
    | atSender happening => exact ih (h.atSender happening)
    | atReceiver happening => exact ih (h.atReceiver happening)

/-- **Delivery.** Whatever happens at both ends of a session and in between, what the receiver has
handed to its injector is part of what the sender's queue has accepted, in that order; without the
pointer moves it is the beginning of what was accepted, and all of it when the sender waits with
nothing in its queue and there is nothing on the way. -/
theorem delivery {s r : Terms} (h : Established id s.link r.link) (forth back : Nat)
    (steps : List Step) :
    let p := (Pair.begin id s r forth back).run steps
    p.receiver.injected.Sublist p.sender.accepted ∧
    lasting p.receiver.injected <+: lasting p.sender.accepted ∧
    (p.sender.worker.phase = .waiting → p.sender.outlet.queue.events = [] →
      p.forth.buffered = [] → p.receiver.worker.link.reader.buffered = [] →
      lasting p.receiver.injected = lasting p.sender.accepted) := by
  intro p
  have hsound : p.Sound id := (sound_begin h forth back).run steps
  obtain ⟨letters, missing, lost, hflight, htallies⟩ := hsound
  have haccounts := htallies.accounts
  have hbegins : p.receiver.injected <+: p.receiver.injected ++ letters.filterMap Letter.event?
      ++ lost ++ p.sender.outlet.queue.events := by
    rw [List.append_assoc, List.append_assoc]
    exact List.prefix_append _ _
  refine ⟨hbegins.sublist.trans haccounts.sublist,
    (hbegins.filter _).trans haccounts.lasting_isPrefix, ?_⟩
  intro hphase hqueue hwire hread
  have hrunning := Worker.running_of_waiting hphase
  -- A waiting sender has nothing half written, so all the bytes there are have been looked at.
  have hletters : letters = [] := by
    rw [hwire] at hflight
    exact hflight.letters_eq_nil hread hphase
  have heq := haccounts.lasting_eq (htallies.queue_open hrunning)
  simpa [hletters, htallies.lost_eq hrunning, hqueue] using heq

/-- A key edge that is pushed is handed on, and then nothing is left on the way. -/
theorem delivery_key :
    let id : SessionId := ⟨⟨List.replicate 16 7, rfl⟩⟩
    let t : Terms := ⟨⟨1, 0⟩, 1000, 1000, (Link.new 1 1024).bind id, 0, 4⟩
    let c : Chance := ⟨0, 100, 100, .finished, .accepting⟩
    let key : Event := .key 30 true ⟨0⟩ 5
    Established id t.link t.link ∧
    ∃ p, p = (Pair.begin id t t 100 100).run [.atSender (.push key), .atSender (.move c),
        .atSender (.move c), .atSender (.move c), .atReceiver (.move c), .atReceiver (.move c)] ∧
      p.receiver.injected = [key] ∧ lasting p.receiver.injected = lasting p.sender.accepted := by
  intro id t c key
  have hestablished : Established id t.link t.link := ⟨rfl, rfl, rfl, UInt32.le_refl _⟩
  refine ⟨hestablished, _, rfl, ?_, ?_⟩
  · decide +kernel
  · exact (delivery hestablished 100 100 _).2.2 (by decide +kernel) (by decide +kernel)
      (by decide +kernel) (by decide +kernel)

end Pair

end DeskLink.Session
