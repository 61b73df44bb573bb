import DeskLink.Proofs.Session.Hearing

/-!
# What a session answers

A session answers a heartbeat before it does anything else, and as long as the answer is on its way
it takes up nothing. So the answers that have gone out are those to the heartbeats it has heard, in
their order, but for one: the last, when the session is still at it or has ended over it. It ends
over an answer that it gives up, or that it cannot begin because there is no number left or the
limit for frames is too small (`Worker.BreaksOff`).

`Spoken` follows the frames that have gone out and the one that is opened, `Account` the answers
among them, and one move keeps both (`Accounted.moves`).
-/

namespace DeskLink

def Message.beat? : Message → Option UInt64
  | .heartbeat token => some token
  | _ => none

/-- The token of the heartbeat that is answered. -/
def Message.ack? : Message → Option UInt64
  | .heartbeatAck token => some token
  | _ => none

namespace Session

/-- The token of the heartbeat that a letter answers. -/
def Letter.ack? (x : Letter) : Option UInt64 := x.envelope.message.ack?

/-- The bytes of letters, one after another. -/
def Letter.stream (letters : List Letter) : Bytes := Frame.stream (letters.map (·.body))

/-- The tokens of the heartbeats that letters answer. -/
def acked (letters : List Letter) : List UInt64 := letters.filterMap Letter.ack?

/-- The tokens of the heartbeats among messages. -/
def beats (heard : List Message) : List UInt64 := heard.filterMap Message.beat?

@[simp] theorem acked_append (before after : List Letter) :
    acked (before ++ after) = acked before ++ acked after := List.filterMap_append

@[simp] theorem beats_append (before after : List Message) :
    beats (before ++ after) = beats before ++ beats after := List.filterMap_append

theorem acked_toList (opened : Option Letter) :
    acked opened.toList = (opened.bind Letter.ack?).toList := by
  cases opened with
  | none => rfl
  | some x => cases hx : x.ack? <;> simp [acked, hx]

private theorem beats_toList (message : Option Message) :
    beats message.toList = (message.bind Message.beat?).toList := by
  cases message with
  | none => rfl
  | some m => cases hm : m.beat? <;> simp [beats, hm]

private theorem eq_heartbeat_of_beat? {m : Message} {token : UInt64} (h : m.beat? = some token) :
    m = .heartbeat token := by
  cases m with
  | heartbeat => exact congrArg Message.heartbeat (Option.some.inj h)
  | _ => nomatch h

namespace Worker

variable {w w' : Worker} {o : Offer} {effect : Effect}

/-! ## What a move says -/

theorem Begins.unsent_ne_nil {m : Message} (h : w.Begins m w') : w'.unsent ≠ [] := by
  obtain ⟨body, -, hunsent⟩ := h.frame
  intro hnothing
  have hlength := congrArg List.length (hunsent.symm.trans hnothing)
  rw [Frame.length_wrap, Frame.lengthSize, List.length_nil] at hlength
  omega

/-- A worker that has something to write is in its loop only to send it. -/
theorem sending_of_unsent (hrunning : w.Running) (hunsent : w.unsent ≠ []) :
    ∃ t, w.phase = .sending t := by
  cases hphase : w.phase with
  | sending t => exact ⟨t, rfl⟩
  | waiting => exact absurd (unsent_of_waiting hphase) hunsent
  | ending | parting | shutting | ended =>
    rw [Running, hphase] at hrunning
    exact hrunning.elim

private theorem intact_of_running (h : w.Running) : w.Intact := by
  unfold Running at h
  unfold Intact
  cases hphase : w.phase with
  | waiting | sending => trivial
  | ending | parting | shutting | ended => simp [hphase] at h

/-- What a move can be for the direction in which a worker sends, beside the message that it takes
up. -/
inductive Answers (w w' : Worker) : Option Message → Bytes → Prop where
  | continues {message : Option Message} {b : Bytes}
      (hrefused : message.bind Message.beat? ≠ none → ¬ w'.Running)
      (hcontinues : w.Continues b w') : Answers w w' message b
  | givesUp (hunsent : w'.unsent = []) (hintact : ¬ w'.Intact) : Answers w w' none []
  /-- The message that is begun answers a heartbeat if one is taken up, and otherwise none. -/
  | begins {message : Option Message} {m : Message} (hm : m.ack? = message.bind Message.beat?)
      (hrunning : m.ack? ≠ none → w'.Running) (hbegins : w.Begins m w') : Answers w w' message []

theorem Answers.silent {b : Bytes} (h : w.Continues b w') : w.Answers w' none b :=
  .continues (absurd rfl) h

/-- A waiting worker that starts to send answers what it has taken up. -/
theorem answers_send {w₁ : Worker} {m : Message} {message : Option Message}
    (hphase : w.phase = .waiting) (hm : m.ack? = message.bind Message.beat?)
    (hversion : w₁.link.version = w.link.version) (hbinding : w₁.link.binding = w.link.binding)
    (houtbound : w₁.link.outbound = w.link.outbound) : w.Answers (w₁.send m) message [] := by
  rcases begins_or_continues hphase m hversion hbinding houtbound with hbegins | ⟨hover, hcontinues⟩
  · refine .begins hm (fun _ ↦ ?_) hbegins
    rcases phase_send w₁ m with hrunning | ⟨why, hending⟩
    · exact hrunning
    · exact absurd (by rw [unsent, hending]) hbegins.unsent_ne_nil
  · exact .continues (fun _ ↦ hover) hcontinues

private theorem answers_beat (hphase : w.phase = .waiting) (now : Instant) :
    w.Answers (w.beat now) none [] := by
  unfold beat
  split
  rename_i due monitor _
  cases due with
  | nothing => exact .silent (continues_of_phase_eq rfl rfl (UInt32.le_refl _))
  | beat token => exact answers_send hphase rfl rfl rfl rfl
  | stale silent => exact .silent (continues_finish hphase _ rfl (UInt32.le_refl _))

private theorem answers_handle {w₁ : Worker} (hphase : w.phase = .waiting) (m : Message)
    (hsame : w₁.phase = w.phase) (hversion : w₁.link.version = w.link.version)
    (hbinding : w₁.link.binding = w.link.binding) (houtbound : w₁.link.outbound = w.link.outbound) :
    w.Answers (w₁.handle o m).1 (some m) (w₁.handle o m).2.written := by
  have hle : w.link.outbound.last ≤ w₁.link.outbound.last := houtbound ▸ UInt32.le_refl _
  cases m with
  | heartbeat token => exact answers_send hphase rfl hversion hbinding houtbound
  | close reason | report r =>
    exact .continues (absurd rfl) (continues_finish hphase _ hbinding hle)
  | input | heartbeatAck | hello | auth | authResult =>
    exact .continues (absurd rfl) (continues_of_phase_eq hsame hbinding hle)

private theorem ack?_of_farewell? {e : Ending} {m : Message} (h : farewell? e = some m) :
    m.ack? = none := by
  unfold farewell? at h
  split at h
  · obtain rfl := Option.some.inj h
    rfl
  · nomatch h
  · obtain ⟨report, -, rfl⟩ := Option.map_eq_some_iff.mp h
    rfl

private theorem answers_parts {now : Instant} {e : Ending} (hphase : w.phase = .ending e)
    (h : w.Parts now e w') : w.Answers w' none [] := by
  have hunsent : w.unsent = [] := by rw [unsent, hphase]
  cases h with
  | silent => exact .silent ⟨hunsent, False.elim, False.elim, rfl, UInt32.le_refl _⟩
  | @begins m seq body t hfarewell hseq hbody ht =>
    have hintact : w.Intact := by
      rw [Intact, hphase]
      exact fun hnone ↦ Option.some_ne_none m (hfarewell.symm.trans hnone)
    have hm := ack?_of_farewell? hfarewell
    exact .begins hm (absurd hm) ⟨hunsent, hintact, False.elim, rfl, hseq, body, hbody, ht⟩
  | refuses _ hle => exact .silent ⟨hunsent, False.elim, False.elim, rfl, hle⟩

/-- **A move answers what it takes up**, or nothing. -/
theorem answers_of_reacts {message : Option Message} (h : w.Reacts o message w' effect) :
    w.Answers w' message effect.written := by
  cases h with
  | obeys hphase => exact .silent (continues_finish hphase _ rfl (UInt32.le_refl _))
  | abandoned => exact .silent (continues_of_phase_eq rfl rfl (UInt32.le_refl _))
  | hears hphase hreceive =>
    obtain ⟨reader, inbound, count, rfl⟩ := Link.outgoing_receive hreceive
    exact answers_handle hphase _ rfl rfl rfl rfl
  | other hdeaf hdoes =>
    cases carries_of_does hdoes with
    | hears hlistens hreceive => exact absurd ⟨hlistens, congrArg Prod.fst hreceive⟩ (hdeaf _)
    | goesOn _ hcontinues => exact .silent hcontinues
    | givesUp hunsent hintact => exact .givesUp hunsent hintact
    | beats hphase => exact answers_beat hphase _
    | forwards hphase => exact answers_send hphase rfl rfl rfl rfl
    | parts hphase hparts => exact answers_parts hphase hparts

/-! ## The frames that have gone out -/

/-- A worker that has written these bytes has sent these letters, and may have opened one more, of
which the stream has not taken all. What is missing of it will never be written. -/
structure Spoken (w : Worker) (written : Bytes) (sent : List Letter) (opened : Option Letter)
    (missing : Bytes) : Prop where
  stream_eq : written ++ (w.unsent ++ missing) = Letter.stream (sent ++ opened.toList)
  torn : w.unsent ++ missing <:+ Letter.stream opened.toList
  whole : w.Intact → missing = []
  open_iff : w.unsent ++ missing = [] ↔ opened = none

namespace Spoken

variable {written : Bytes} {sent : List Letter} {opened : Option Letter} {missing : Bytes}

/-- A worker that has opened a letter is in its loop only to send it. -/
theorem sending (h : Spoken w written sent opened missing) (hrunning : w.Running)
    (hopened : opened ≠ none) : ∃ t, w.phase = .sending t := by
  refine sending_of_unsent hrunning fun hunsent ↦ hopened (h.open_iff.mp ?_)
  rw [hunsent, h.whole (intact_of_running hrunning), List.append_nil]

theorem continues {b : Bytes} (h : Spoken w written sent opened missing) (hw : w.Continues b w') :
    Spoken w' (written ++ b) sent opened missing ∨
      Spoken w' (written ++ b) (sent ++ opened.toList) none missing := by
  have hrest : w.unsent ++ missing = b ++ (w'.unsent ++ missing) := by
    rw [hw.unsent_eq, List.append_assoc]
  have hwhole : w'.Intact → missing = [] := fun hintact ↦ h.whole (hw.intact hintact)
  have hstream :
      written ++ b ++ (w'.unsent ++ missing) = Letter.stream (sent ++ opened.toList) := by
    rw [List.append_assoc, ← hrest, h.stream_eq]
  by_cases hdone : w'.unsent ++ missing = []
  · right
    refine ⟨?_, ?_, hwhole, ⟨fun _ ↦ rfl, fun _ ↦ hdone⟩⟩
    · simpa using hstream
    · rw [hdone]
      exact List.nil_suffix
  · left
    have htorn := h.torn
    rw [hrest] at htorn
    refine ⟨hstream, (List.suffix_append b _).trans htorn, hwhole,
      fun hnothing ↦ absurd hnothing hdone, fun hnone ↦ ?_⟩
    rw [← h.open_iff, hrest] at hnone
    exact (List.append_eq_nil_iff.mp hnone).2

theorem givesUp (h : Spoken w written sent opened missing) (hunsent : w'.unsent = [])
    (hintact : ¬ w'.Intact) : Spoken w' written sent opened (w.unsent ++ missing) where
  stream_eq := by
    rw [hunsent, List.nil_append]
    exact h.stream_eq
  torn := by
    rw [hunsent, List.nil_append]
    exact h.torn
  whole hw := absurd hw hintact
  open_iff := by
    rw [hunsent, List.nil_append]
    exact h.open_iff

theorem begins {m : Message} (h : Spoken w written sent opened missing) (hw : w.Begins m w') :
    opened = none ∧ ∃ x : Letter, x.ack? = m.ack? ∧ Spoken w' written sent (some x) [] := by
  obtain ⟨x, hx, hunsent⟩ := Letter.of_begins hw
  have hnothing : w.unsent ++ missing = [] := by
    rw [hw.unsent_eq, h.whole hw.intact, List.append_nil]
  obtain rfl := h.open_iff.mp hnothing
  have hframe : w'.unsent ++ [] = Letter.stream [x] := by
    simp [Letter.stream, hunsent]
  refine ⟨rfl, x, by rw [Letter.ack?, hx, Link.envelope], ?_, ?_, fun _ ↦ rfl, ?_⟩
  · have hstream := h.stream_eq
    rw [hnothing] at hstream
    rw [hframe, Option.toList_some]
    simpa [Letter.stream] using hstream
  · rw [hframe]
    exact List.suffix_refl _
  · simp [hw.unsent_ne_nil]

end Spoken

/-! ## The answers among them -/

private theorem failure_of_sending {t : Frame.Transmission} (hstep : w.step o = some (w', effect))
    (hphase : w.phase = .sending t) (hover : ¬ w'.Running) :
    ∃ why, w'.ending? = some (.error why) := by
  have hrunning : w.Running := by
    rw [Running, hphase]
    trivial
  have hbusy : w.phase ≠ .waiting := by simp [hphase]
  obtain ⟨-, k, hquits, hending⟩ := quits_of_step hstep hrunning hover
  cases hquits with
  | ordered hheeds => exact absurd hheeds.phase_eq hbusy
  | closed _ htakes | reported _ htakes => exact absurd htakes.listens.phase_eq hbusy
  | @detected why => exact ⟨why, by rw [ending?, hending, Cause.ending]⟩

private theorem failure_of_heartbeat {token : UInt64} (hstep : w.step o = some (w', effect))
    (hheard : w.heard? o = some (.heartbeat token)) (hover : ¬ w'.Running) :
    ∃ why, w'.ending? = some (.error why) := by
  obtain ⟨rfl, rfl⟩ := Prod.mk.inj (Option.some.inj ((step_of_heard? hheard).symm.trans hstep))
  rcases phase_send { w with link := (w.link.receive o.read).2 } (.heartbeatAck token) with
    hrunning | ⟨why, hending⟩
  · exact absurd hrunning hover
  · exact ⟨why, by simp only [ending?, hending]⟩

/-- These letters answer the heartbeats among these messages, but perhaps for the last message. The
answer to it has been opened, or never will be as the session has `broken` off over it. -/
inductive Account (heard : List Message) (w : Worker) (broken : Prop) (sent : List Letter)
    (opened : Option Letter) : Prop where
  | even (hacked : acked sent = beats heard) (hopened : opened.bind Letter.ack? = none)
  | opens {token : UInt64} (hacked : acked sent ++ [token] = beats heard)
      (hlast : heard.getLast? = some (.heartbeat token))
      (hopened : opened.bind Letter.ack? = some token) (hstands : w.Running ∨ broken)
  | lacks {token : UInt64} (hacked : acked sent ++ [token] = beats heard)
      (hlast : heard.getLast? = some (.heartbeat token))
      (hopened : opened.bind Letter.ack? = none) (hover : ¬ w.Running) (hbroken : broken)

variable {heard : List Message} {broken broken' : Prop} {written : Bytes} {sent : List Letter}
  {opened : Option Letter} {missing : Bytes}

theorem Account.mono (h : Account heard w broken sent opened) (hbroken : broken → broken') :
    Account heard w broken' sent opened := by
  cases h with
  | even hacked hopened => exact .even hacked hopened
  | opens hacked hlast hopened hstands =>
    exact .opens hacked hlast hopened (hstands.imp_right hbroken)
  | lacks hacked hlast hopened hover hstands =>
    exact .lacks hacked hlast hopened hover (hbroken hstands)

/-- What a worker has written, having heard these messages, gives an account of its answers. -/
def Accounted (heard : List Message) (w : Worker) (broken : Prop) (written : Bytes) : Prop :=
  ∃ sent opened missing,
    Spoken w written sent opened missing ∧ Account heard w broken sent opened

/-- As long as no answer is opened none is completed, and one is opened to a heartbeat, unless the
session ends over it. -/
theorem Spoken.answers {message : Option Message} {b : Bytes}
    (h : Spoken w written sent opened missing) (hanswers : w.Answers w' message b)
    (hopened : opened.bind Letter.ack? = none) :
    ∃ sent' opened' missing', Spoken w' (written ++ b) sent' opened' missing' ∧
      acked sent' = acked sent ∧
      (opened'.bind Letter.ack? = message.bind Message.beat? ∧
          (message.bind Message.beat? ≠ none → w'.Running) ∨
        opened'.bind Letter.ack? = none ∧
          (message.bind Message.beat? ≠ none → ¬ w'.Running)) := by
  cases hanswers with
  | continues hrefused hcontinues =>
    rcases h.continues hcontinues with hgoes | hdone
    · exact ⟨sent, opened, missing, hgoes, rfl, .inr ⟨hopened, hrefused⟩⟩
    · have hacked : acked (sent ++ opened.toList) = acked sent := by
        simp [acked_toList, hopened]
      exact ⟨_, none, missing, hdone, hacked, .inr ⟨rfl, hrefused⟩⟩
  | givesUp hunsent hintact =>
    have hspoken := h.givesUp hunsent hintact
    rw [← List.append_nil written] at hspoken
    exact ⟨sent, opened, _, hspoken, rfl, .inr ⟨hopened, absurd rfl⟩⟩
  | begins hm hrunning hbegins =>
    obtain ⟨-, x, hx, hspoken⟩ := h.begins hbegins
    rw [← List.append_nil written] at hspoken
    rw [hm] at hx hrunning
    exact ⟨sent, some x, [], hspoken, rfl, .inl ⟨hx, hrunning⟩⟩

private theorem Spoken.accounted {token : UInt64} {b : Bytes}
    (h : Spoken w written sent opened missing) (hanswers : w.Answers w' none b)
    (hacked : acked sent ++ [token] = beats heard)
    (hlast : heard.getLast? = some (.heartbeat token))
    (hopened : opened.bind Letter.ack? = some token) (hstands : w'.Running ∨ broken) :
    Accounted heard w' broken (written ++ b) := by
  cases hanswers with
  | continues _ hcontinues =>
    rcases h.continues hcontinues with hgoes | hdone
    · exact ⟨sent, opened, missing, hgoes, .opens hacked hlast hopened hstands⟩
    · have hacked' : acked (sent ++ opened.toList) = beats heard := by
        rw [← hacked, acked_append, acked_toList, hopened, Option.toList_some]
      exact ⟨_, none, missing, hdone, .even hacked' rfl⟩
  | givesUp hunsent hintact =>
    have hspoken := h.givesUp hunsent hintact
    rw [← List.append_nil written] at hspoken
    exact ⟨sent, opened, _, hspoken, .opens hacked hlast hopened hstands⟩
  | begins _ _ hbegins =>
    obtain ⟨rfl, -⟩ := h.begins hbegins
    nomatch hopened

/-- When all is answered so far, what matters is whether a heartbeat is taken up now. -/
theorem Spoken.takesUp (h : Spoken w written sent opened missing)
    (hstep : w.step o = some (w', effect)) (hacked : acked sent = beats heard)
    (hopened : opened.bind Letter.ack? = none)
    (hbreaks : w.Running → (∃ why, w'.ending? = some (.error why)) →
      (∃ m, w.heard? o = some m) → broken) :
    Accounted (heard ++ (w.heard? o).toList) w' broken (written ++ effect.written) := by
  obtain ⟨sent', opened', missing', hspoken, hsame, hcases⟩ :=
    h.answers (answers_of_reacts (reacts_of_step hstep)) hopened
  refine ⟨sent', opened', missing', hspoken, ?_⟩
  rw [hacked] at hsame
  have hbeats : beats (heard ++ (w.heard? o).toList) =
      acked sent' ++ ((w.heard? o).bind Message.beat?).toList := by
    rw [beats_append, beats_toList, hsame]
  cases hbeat : (w.heard? o).bind Message.beat? with
  | none =>
    rw [hbeat] at hbeats hcases
    refine .even (by simpa using hbeats.symm) ?_
    rcases hcases with ⟨hnone, -⟩ | ⟨hnone, -⟩ <;> exact hnone
  | some token =>
    rw [hbeat] at hbeats hcases
    obtain ⟨m, hheard, hm⟩ := Option.bind_eq_some_iff.mp hbeat
    obtain rfl := eq_heartbeat_of_beat? hm
    have hlast : (heard ++ (w.heard? o).toList).getLast? = some (.heartbeat token) := by
      simp [hheard]
    rcases hcases with ⟨hopened', hrunning⟩ | ⟨hopened', hover⟩
    · exact .opens hbeats.symm hlast hopened' (.inl (hrunning (by simp)))
    · have hfailure := failure_of_heartbeat hstep hheard (hover (by simp))
      have hrunning := running_of_waiting (phase_of_heard? hheard)
      exact .lacks hbeats.symm hlast hopened' (hover (by simp))
        (hbreaks hrunning hfailure ⟨_, hheard⟩)

/-- Nothing is taken up until the answer is out or given up, and then the session is over. -/
theorem Spoken.finishes {token : UInt64} (h : Spoken w written sent opened missing)
    (hstep : w.step o = some (w', effect)) (hacked : acked sent ++ [token] = beats heard)
    (hlast : heard.getLast? = some (.heartbeat token))
    (hopened : opened.bind Letter.ack? = some token) (hstands : w.Running ∨ broken)
    (hbreaks : w.Running → (∃ why, w'.ending? = some (.error why)) →
      (∃ t, w.phase = .sending t) → broken) :
    Accounted (heard ++ (w.heard? o).toList) w' broken (written ++ effect.written) := by
  have hanswers := answers_of_reacts (reacts_of_step hstep)
  have hsome : opened ≠ none := by
    rintro rfl
    nomatch hopened
  have hdeaf : w.heard? o = none := by
    refine heard?_of_not_waiting fun hphase ↦ ?_
    obtain ⟨t, hsending⟩ := h.sending (running_of_waiting hphase) hsome
    exact Phase.noConfusion (hphase.symm.trans hsending)
  have hstands' : w'.Running ∨ broken := by
    by_cases hrunning' : w'.Running
    · exact .inl hrunning'
    refine .inr ?_
    by_cases hrunning : w.Running
    · obtain ⟨t, hsending⟩ := h.sending hrunning hsome
      exact hbreaks hrunning (failure_of_sending hstep hsending hrunning') ⟨t, hsending⟩
    · exact hstands.resolve_left hrunning
  rw [hdeaf] at hanswers ⊢
  rw [Option.toList_none, List.append_nil]
  exact h.accounted hanswers hacked hlast hopened hstands'

/-- The session is over, and a farewell is no answer. -/
theorem Spoken.leaves {token : UInt64} (h : Spoken w written sent opened missing)
    (hstep : w.step o = some (w', effect)) (hacked : acked sent ++ [token] = beats heard)
    (hlast : heard.getLast? = some (.heartbeat token)) (hopened : opened.bind Letter.ack? = none)
    (hover : ¬ w.Running) (hbroken : broken) :
    Accounted (heard ++ (w.heard? o).toList) w' broken (written ++ effect.written) := by
  have hover' : ¬ w'.Running := fun hrunning ↦
    hover (running_of_does (does_step hstep) hrunning)
  obtain ⟨sent', opened', missing', hspoken, hsame, hcases⟩ :=
    h.answers (answers_of_reacts (reacts_of_step hstep)) hopened
  rw [heard?_of_not_running hover] at hcases ⊢
  rw [Option.toList_none, List.append_nil]
  have hopened' : opened'.bind Letter.ack? = none := by
    rcases hcases with ⟨hnone, -⟩ | ⟨hnone, -⟩ <;> exact hnone
  exact ⟨sent', opened', missing', hspoken, .lacks (hsame ▸ hacked) hlast hopened' hover' hbroken⟩

/-- **One move keeps the account.** -/
theorem Accounted.moves (h : Accounted heard w broken written)
    (hstep : w.step o = some (w', effect)) (hbroken : broken → broken')
    (hbreaks : w.Running → (∃ why, w'.ending? = some (.error why)) →
      ((∃ m, w.heard? o = some m) ∨ ∃ t, w.phase = .sending t) → broken') :
    Accounted (heard ++ (w.heard? o).toList) w' broken' (written ++ effect.written) := by
  obtain ⟨sent, opened, missing, hspoken, haccount⟩ := h
  cases haccount with
  | even hacked hopened =>
    exact hspoken.takesUp hstep hacked hopened fun hrunning hfailure hheard ↦
      hbreaks hrunning hfailure (.inl hheard)
  | opens hacked hlast hopened hstands =>
    exact hspoken.finishes hstep hacked hlast hopened (hstands.imp_right hbroken)
      fun hrunning hfailure hsending ↦ hbreaks hrunning hfailure (.inr hsending)
  | lacks hacked hlast hopened hover hstands =>
    exact hspoken.leaves hstep hacked hlast hopened hover (hbroken hstands)

/-! ## Runs -/

/-- The session has ended over its answer to the message that it heard last: it left its loop with a
failure as it took the message up, or afterwards while it was sending. -/
def BreaksOff (w : Worker) (offers : List Offer) : Prop :=
  ∃ before o after why, offers = before ++ o :: after ∧ (w.course before).2.Running ∧
    (w.course (before ++ [o])).2.ending? = some (.error why) ∧
    (w.course offers).2.ending? = some (.error why) ∧
    w.heard (before ++ [o]) = w.heard offers ∧
    ((∃ m, (w.course before).2.heard? o = some m) ∨ ∃ t, (w.course before).2.phase = .sending t)

theorem BreaksOff.concat {offers : List Offer} (h : w.BreaksOff offers) (o : Offer) :
    w.BreaksOff (offers ++ [o]) := by
  obtain ⟨before, last, after, why, rfl, hrunning, hleft, hending, hheard, hcause⟩ := h
  have hdeaf : (w.course (before ++ last :: after)).2.heard? o = none := by
    refine heard?_of_not_waiting fun hphase ↦ ?_
    simp [ending?, hphase] at hending
  refine ⟨before, last, after ++ [o], why, by simp, hrunning, hleft, ?_, ?_, hcause⟩
  · rw [course_concat]
    cases hstep : (w.course (before ++ last :: after)).2.step o with
    | none => exact hending
    | some moved => exact ending?_of_does (does_step hstep) hending
  · rw [hheard, heard_concat, hdeaf, Option.toList_none, List.append_nil]

end Worker

end Session

end DeskLink
