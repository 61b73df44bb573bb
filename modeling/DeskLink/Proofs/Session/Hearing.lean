import DeskLink.Proofs.Session.Farewell
import DeskLink.Proofs.Session.Deadline
import DeskLink.Proofs.Link.Replay

/-!
# What a session hears

A session that waits for a message waits for other things too, and whenever one of them comes first
the receipt is broken off, even in the middle of a frame. It goes on where it was, since all that
has come is in the buffer of the link. So what a session hears is settled by the bytes that it has
read alone: it is what the link would hand on of the frames in them (`Worker.collects_course`).

Which message a move takes up does not show in its effect, so it is read off the worker and what it
is offered (`Worker.heard?`). `Worker.Reacts` is the list of moves with this message beside each:
a command is obeyed whatever has arrived, a message is handled, and in any other move none has come.
What is proved about a run follows from one move by `Worker.along`.
-/

namespace DeskLink

/-- How a session ends on a side that speaks this version when this message comes. -/
def Message.ending? (own : Version) : Message → Option Session.Ending
  | .close reason => some (.ok ⟨.peer, reason⟩)
  | .report r => some (.error (.ofReport own r))
  | _ => none

namespace Session

/-- The bytes that a move read of what it was offered. -/
def Effect.took (o : Offer) : Effect → Bytes
  | .read count => o.read.bytes.take count
  | _ => []

private theorem Effect.took_of_consumed {effect : Effect} (h : effect.consumed = 0) (o : Offer) :
    effect.took o = [] := by
  cases effect with
  | read count =>
    obtain rfl : count = 0 := h
    rfl
  | _ => rfl

namespace Worker

/-- The message that a worker takes up when it is offered this. -/
def heard? (w : Worker) (o : Offer) : Option Message :=
  match w.notice? o with
  | some (.took m) => some m
  | _ => none

/-- The messages that a worker takes up when it is offered one thing after another. -/
def heard (w : Worker) : List Offer → List Message
  | [] => []
  | o :: offers => (w.heard? o).toList ++
      match w.step o with
      | some (w', _) => w'.heard offers
      | none => w.heard offers

variable {w w' : Worker} {o : Offer} {effect : Effect} {m : Message}

/-! ## Moves and messages -/

/-- A worker that is not told anything else goes on with a message. -/
theorem step_of_listens (hlistens : w.Listens o)
    (hcommand : ¬ (w.commandsOpen = true ∧ o.command.isSome)) : w.step o = w.listen o := by
  unfold step
  rw [hlistens.phase_eq]
  dsimp only
  unfold select
  split
  · rename_i hopen hgiven
    exact absurd ⟨hopen, by rw [hgiven]; rfl⟩ hcommand
  · rename_i hopen hgiven
    exact absurd ⟨hopen, by rw [hgiven]; rfl⟩ hcommand
  · exact if_neg (Nat.not_le_of_lt hlistens.not_due)

private theorem due?_ne_took (w : Worker) (now : Instant) (m : Message) :
    w.due? now ≠ some (.took m) := by
  unfold due?
  split <;> simp

theorem incoming?_eq_took_iff {read : ReadReply} :
    w.incoming? read = some (.took m) ↔ (w.link.receive read).1 = .frame (some m) := by
  unfold incoming?
  split
  · rename_i hreceive
    simp [hreceive]
  · rename_i hnone
    exact ⟨nofun, fun hreceive ↦ absurd hreceive (hnone m)⟩

private theorem heard?_eq_some_iff_notice : w.heard? o = some m ↔ w.notice? o = some (.took m) := by
  unfold heard?
  split
  · rename_i hnotice
    simp [hnotice]
  · rename_i hnone
    exact ⟨nofun, fun hnotice ↦ absurd hnotice (hnone m)⟩

/-- **A worker takes up a message** when it waits, no command comes first and nothing is due. -/
theorem heard?_eq_some_iff : w.heard? o = some m ↔
    w.Takes o m ∧ ¬ (w.commandsOpen = true ∧ o.command.isSome) := by
  rw [heard?_eq_some_iff_notice]
  unfold notice?
  constructor
  · intro h
    cases hphase : w.phase with
    | waiting =>
      rw [hphase] at h
      dsimp only at h
      split at h
      · nomatch h
      rename_i hcommand
      split at h
      · exact absurd h (due?_ne_took w _ m)
      rename_i hdue
      exact ⟨⟨⟨hphase, Nat.lt_of_not_le hdue⟩, incoming?_eq_took_iff.mp h⟩, hcommand⟩
    | sending | ending | parting | shutting | ended => simp [hphase] at h
  · rintro ⟨⟨hlistens, hreceive⟩, hcommand⟩
    rw [hlistens.phase_eq]
    dsimp only
    rw [if_neg hcommand, if_neg (Nat.not_le_of_lt hlistens.not_due)]
    exact incoming?_eq_took_iff.mpr hreceive

theorem phase_of_heard? (h : w.heard? o = some m) : w.phase = .waiting :=
  (heard?_eq_some_iff.mp h).1.listens.phase_eq

theorem heard?_of_not_waiting (hphase : w.phase ≠ .waiting) : w.heard? o = none := by
  cases hheard : w.heard? o with
  | none => rfl
  | some m => exact absurd (phase_of_heard? hheard) hphase

theorem heard?_of_not_running (hover : ¬ w.Running) : w.heard? o = none :=
  heard?_of_not_waiting fun hphase ↦ hover (running_of_waiting hphase)

theorem step_of_heard? (h : w.heard? o = some m) :
    w.step o = some (handle { w with link := (w.link.receive o.read).2 } o m) := by
  obtain ⟨⟨hlistens, hreceive⟩, hcommand⟩ := heard?_eq_some_iff.mp h
  rw [step_of_listens hlistens hcommand, listen]
  generalize w.link.receive o.read = received at hreceive ⊢
  obtain ⟨arrival, link⟩ := received
  obtain rfl : arrival = .frame (some m) := hreceive
  rfl

/-- What a worker can do beside the message that it takes up. -/
inductive Reacts (w : Worker) (o : Offer) : Option Message → Worker → Effect → Prop where
  | obeys {reason : CloseReason} (hphase : w.phase = .waiting) :
      Reacts w o none (w.finish (.ok ⟨.own, reason⟩)) .command
  | abandoned (hphase : w.phase = .waiting) :
      Reacts w o none { w with commandsOpen := false } .none
  | hears {m : Message} {link : Link} (hphase : w.phase = .waiting)
      (hreceive : w.link.receive o.read = (.frame (some m), link)) :
      Reacts w o (some m) (handle { w with link } o m).1 (handle { w with link } o m).2
  | other {w' : Worker} {effect : Effect} (hdeaf : ∀ m, ¬ w.Takes o m)
      (hdoes : w.Does o w' effect) : Reacts w o none w' effect

/-- **A move and its message are one of these.** -/
theorem reacts_of_step (h : w.step o = some (w', effect)) : w.Reacts o (w.heard? o) w' effect := by
  cases hheard : w.heard? o with
  | some m =>
    obtain ⟨⟨hlistens, hreceive⟩, -⟩ := heard?_eq_some_iff.mp hheard
    obtain ⟨hworker, heffect⟩ :=
      Prod.mk.inj (Option.some.inj ((step_of_heard? hheard).symm.trans h))
    exact hworker ▸ heffect ▸ .hears hlistens.phase_eq (Prod.ext hreceive rfl)
  | none =>
    by_cases hdeaf : ∃ m, w.Takes o m
    · -- A message has come and is not taken up, so a command is.
      obtain ⟨m, htakes⟩ := hdeaf
      have hcommand : w.commandsOpen = true ∧ o.command.isSome := by
        by_contra hcommand
        exact absurd (hheard.symm.trans (heard?_eq_some_iff.mpr ⟨htakes, hcommand⟩)) (by simp)
      have hphase := htakes.listens.phase_eq
      obtain ⟨command, hgiven⟩ := Option.isSome_iff_exists.mp hcommand.2
      cases command with
      | some reason =>
        have hstep := step_of_heeds ⟨hphase, hcommand.1, hgiven⟩
        obtain ⟨rfl, rfl⟩ := Prod.mk.inj (Option.some.inj (hstep.symm.trans h))
        exact .obeys hphase
      | none =>
        have hstep : w.step o = some ({ w with commandsOpen := false }, .none) := by
          simp only [step, select, hphase, hcommand.1, hgiven, quietly]
        obtain ⟨rfl, rfl⟩ := Prod.mk.inj (Option.some.inj (hstep.symm.trans h))
        exact .abandoned hphase
    · exact .other (not_exists.mp hdeaf) (does_step h)

/-! ## One more offer -/

theorem course_cons_of_step (h : w.step o = some (w', effect)) (offers : List Offer) :
    w.course (o :: offers) = ((o, effect) :: (w'.course offers).1, (w'.course offers).2) := by
  rw [course, h]

theorem course_cons_of_step_eq_none (h : w.step o = none) (offers : List Offer) :
    w.course (o :: offers) = w.course offers := by
  rw [course, h]

theorem course_concat (w : Worker) (offers : List Offer) (o : Offer) :
    w.course (offers ++ [o]) =
      match (w.course offers).2.step o with
      | some (w', effect) => ((w.course offers).1 ++ [(o, effect)], w')
      | none => w.course offers := by
  induction offers generalizing w with
  | nil => rfl
  | cons first offers ih =>
    rw [List.cons_append]
    cases hstep : w.step first with
    | none => rw [course_cons_of_step_eq_none hstep, course_cons_of_step_eq_none hstep, ih]
    | some moved =>
      rw [course_cons_of_step hstep, course_cons_of_step hstep, ih]
      cases (moved.1.course offers).2.step o <;> rfl

theorem heard_concat (w : Worker) (offers : List Offer) (o : Offer) :
    w.heard (offers ++ [o]) = w.heard offers ++ ((w.course offers).2.heard? o).toList := by
  induction offers generalizing w with
  | nil =>
    rw [List.nil_append, heard, heard, course, List.nil_append]
    cases w.step o <;> exact List.append_nil _
  | cons first offers ih =>
    rw [List.cons_append, heard, heard]
    cases hstep : w.step first with
    | none => rw [course_cons_of_step_eq_none hstep, ih, List.append_assoc]
    | some moved =>
      obtain ⟨w', effect⟩ := moved
      dsimp only
      rw [course_cons_of_step hstep, ih, List.append_assoc]

end Worker

end Session

/-! ## What is read -/

namespace Link

def Arrival.count : Arrival → Nat
  | .read count => count
  | .blocked | .frame _ | .failed _ => 0

private theorem messages_concat (taken : List (Bytes × Arrival)) (x : Bytes × Arrival) :
    messages (taken ++ [x]) = messages taken ++ x.2.message?.toList := by
  cases hx : x.2.message? <;> simp [messages, hx]

private theorem count_judge (l : Link) (body : Bytes) : (l.judge body).1.count = 0 := by
  have hjudges := l.judges body
  generalize l.judge body = judged at hjudges ⊢
  obtain ⟨arrival, l'⟩ := judged
  cases hjudges <;> rfl

/-- One attempt to go on adds the message that comes of it, and the bytes that are read. -/
theorem Receipt.attempt_spec (s : Receipt) (reply : ReadReply) :
    (s.attempt reply).link = (s.link.receive reply).2 ∧
      (s.attempt reply).read = s.read ++ reply.bytes.take (s.link.receive reply).1.count ∧
      messages (s.attempt reply).taken =
        messages s.taken ++ (s.link.receive reply).1.message?.toList := by
  cases htake : s.link.reader.takeFrame with
  | error why => simp [attempt, receive, htake, Arrival.count, Arrival.message?]
  | ok taken =>
    cases taken with
    | some frame =>
      obtain ⟨body, reader⟩ := frame
      simp [attempt, htake, receive_of_takeFrame htake, messages_concat, count_judge]
    | none =>
      cases reply with
      | notReady | failed =>
        simp [attempt, receive, htake, Arrival.count, Arrival.message?, ReadReply.bytes]
      | data b =>
        cases b <;>
          simp [attempt, receive, htake, Arrival.count, Arrival.message?, ReadReply.bytes]

end Link

namespace Session.Worker

variable {w w' : Worker} {o : Offer} {effect : Effect} {l : Link} {read : Bytes}
  {heard : List Message}

/-- A worker whose link was this one has read these bytes and taken up these messages. -/
def Collects (l : Link) (w : Worker) (read : Bytes) (heard : List Message) : Prop :=
  ∃ taken, (Link.Receipt.mk w.link read taken).Faithful l ∧ Link.messages taken = heard

theorem Collects.keeps (h : Collects l w read heard) (hinbox : w.SameInbox w')
    (hbinding : w'.link.binding = w.link.binding) (hconsumed : effect.consumed = 0) :
    Collects l w' (read ++ effect.took o) heard := by
  rw [Effect.took_of_consumed hconsumed, List.append_nil]
  obtain ⟨taken, hfaithful, hmessages⟩ := h
  refine ⟨taken, ⟨hfaithful.taken_eq, ?_, ?_, ?_⟩, hmessages⟩
  · exact hinbox.2.trans hfaithful.inbound_eq
  · exact hbinding.trans hfaithful.binding_eq
  · exact hfaithful.stream_eq.trans (by rw [hinbox.1])

theorem Collects.receives {arrival : Link.Arrival} {link : Link} (h : Collects l w read heard)
    (hreceive : w.link.receive o.read = (arrival, link)) :
    Collects l { w with link } (read ++ o.read.bytes.take arrival.count)
      (heard ++ arrival.message?.toList) := by
  obtain ⟨taken, hfaithful, rfl⟩ := h
  have hattempt := hfaithful.attempt o.read
  obtain ⟨hlink, hread, hmessages⟩ := Link.Receipt.attempt_spec ⟨w.link, read, taken⟩ o.read
  rw [hreceive] at hlink hread hmessages
  generalize Link.Receipt.attempt ⟨w.link, read, taken⟩ o.read = s at *
  obtain ⟨link', read', taken'⟩ := s
  obtain rfl : link' = link := hlink
  obtain rfl : read' = _ := hread
  exact ⟨taken', hattempt, hmessages⟩

private theorem collects_of_does (h : Collects l w read heard) (hdeaf : ∀ m, ¬ w.Takes o m)
    (hdoes : w.Does o w' effect) : Collects l w' (read ++ effect.took o) heard := by
  have hbinding := binding_of_speaks (speaks_of_does hdoes)
  cases hdoes with
  | hears hlistens hreceive => exact absurd ⟨hlistens, congrArg Prod.fst hreceive⟩ (hdeaf _)
  | reads _ hreceive | skips _ hreceive | deafened _ hreceive =>
    have hreceives := h.receives hreceive
    rw [Link.Arrival.message?, Option.toList_none, List.append_nil] at hreceives
    exact hreceives
  | beats => exact h.keeps (sameInbox_beat w _) hbinding rfl
  | forwards => exact h.keeps (sameInbox_send w _) hbinding rfl
  | parts _ hparts => exact h.keeps (sameInbox_parts hparts) hbinding rfl
  | obeys | abandoned | stalls | writes | completes | breaks | bids | parted | abandons | shuts =>
    exact h.keeps ⟨rfl, rfl⟩ hbinding rfl

/-- **One move takes one message, or none, out of what is read.** -/
theorem Collects.moves (h : Collects l w read heard) (hstep : w.step o = some (w', effect)) :
    Collects l w' (read ++ effect.took o) (heard ++ (w.heard? o).toList) := by
  have hbinding := binding_of_speaks (speaks_of_does (does_step hstep))
  have hreacts := reacts_of_step hstep
  generalize w.heard? o = message at hreacts ⊢
  cases hreacts with
  | obeys | abandoned =>
    rw [Option.toList_none, List.append_nil]
    exact h.keeps ⟨rfl, rfl⟩ hbinding rfl
  | other hdeaf hdoes =>
    rw [Option.toList_none, List.append_nil]
    exact collects_of_does h hdeaf hdoes
  | @hears m link _ hreceive =>
    obtain ⟨hinbox, hconsumed, -⟩ := handle_spec { w with link } o m
    have hreceives := h.receives hreceive
    have hlink : link.binding = w.link.binding := by
      obtain ⟨reader, inbound, count, rfl⟩ := Link.outgoing_receive hreceive
      rfl
    rw [Link.Arrival.count, List.take_zero, List.append_nil] at hreceives
    exact hreceives.keeps hinbox (hbinding.trans hlink.symm) hconsumed

/-- A heartbeat is broken off by one that is due, which goes out before the rest has come. -/
example :
    let id : SessionId := ⟨⟨List.replicate 16 7, rfl⟩⟩
    let frame := Frame.wrap ([1, 4, 1] ++ List.replicate 16 7 ++ [0, 0, 0, 1] ++
      List.replicate 7 0 ++ [5])
    let o (now : Instant) (read : ReadReply) : Offer :=
      ⟨now, none, read, .accepts 99, .finished, true, none, .accepting⟩
    let offers := [o 0 (.data (frame.take 9)), o 1000 .notReady, o 1000 .notReady,
      o 1000 .notReady, o 1001 (.data (frame.drop 9)), o 1001 .notReady]
    let w := start id ⟨1, 0⟩ 1000 1000 ((Link.new 1 1024).bind id) 0
    (w.course offers).1.map (·.2.written.length) = [0, 0, 35, 0, 0, 0] ∧
      w.heard offers = [.heartbeat 5] := by
  decide +kernel

/-! ## What is handed on -/

/-- **A notice or a report ends the session** as it says. -/
theorem ending?_of_heard? {m : Message} {e : Ending} (hstep : w.step o = some (w', effect))
    (hheard : w.heard? o = some m) (hm : m.ending? w.version = some e) : w'.ending? = some e := by
  obtain ⟨rfl, rfl⟩ := Prod.mk.inj (Option.some.inj ((step_of_heard? hheard).symm.trans hstep))
  cases m with
  | close | report => exact hm
  | input | heartbeat | heartbeatAck | hello | auth | authResult => nomatch hm

/-- On a side that speaks this version, of the messages heard only the last one may end the session,
and then that is how it has ended. -/
def Concludes (own : Version) (heard : List Message) (w : Worker) : Prop :=
  ∀ before m after e, heard = before ++ m :: after → m.ending? own = some e →
    after = [] ∧ w.ending? = some e

theorem Concludes.moves (h : Concludes w.version heard w) (hstep : w.step o = some (w', effect)) :
    Concludes w.version (heard ++ (w.heard? o).toList) w' := by
  intro before m after e hsplit hm
  cases hheard : w.heard? o with
  | none =>
    rw [hheard, Option.toList_none, List.append_nil] at hsplit
    obtain ⟨hlast, hending⟩ := h before m after e hsplit hm
    exact ⟨hlast, ending?_of_does (does_step hstep) hending⟩
  | some m' =>
    rw [hheard, Option.toList_some] at hsplit
    rcases after.eq_nil_or_concat with rfl | ⟨after, last, rfl⟩
    · obtain ⟨-, hsame⟩ := List.append_inj' hsplit rfl
      obtain rfl := List.singleton_inj.mp hsame
      exact ⟨rfl, ending?_of_heard? hstep hheard hm⟩
    · -- It would have ended the session before, and then nothing more is taken up.
      rw [List.concat_eq_append, ← List.cons_append, ← List.append_assoc] at hsplit
      obtain ⟨-, hending⟩ := h before m after e (List.append_inj' hsplit rfl).1 hm
      simp [ending?, phase_of_heard? hheard] at hending

end Session.Worker

end DeskLink
