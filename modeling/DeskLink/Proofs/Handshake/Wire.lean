import DeskLink.Proofs.Envelope.Size
import DeskLink.Proofs.Handshake.Moves
import DeskLink.Proofs.Handshake.Reaction
import DeskLink.Proofs.Transport.Framing

/-!
# What a handshake puts on the stream

As long as there is budget, a handshake writes whole frames one after another, and each is a message
that a node may say in a handshake. The bytes that are out at any moment are then the beginning of
such frames, `WellFramed`, and a reader that gets them takes out nothing but these messages, however
they arrive.

The farewell breaks this. A used-up budget gives up a frame wherever the stream stopped taking it,
and the report of that goes out after the part that was taken. If the stream takes bytes again in
time, the reader takes the beginning of the report for the rest of the frame: `Spliced`. That is the
only way to go wrong. `Standing` says how the bytes written so far relate to the phase, and each
move keeps it.

A stream that has failed once is taken to fail ever after, `Steady`: no handshake could do better on
one that loses bytes and goes on.
-/

namespace DeskLink

/-- The stream takes no bytes, and never will. -/
def WriteReply.Dead : WriteReply → Prop
  | .accepts n => n = 0
  | .failed _ => True
  | .notReady => False

/-- What a node with this hello may say in a handshake. -/
def Message.Opening (own : Hello) : Message → Prop
  | .hello h => h = own
  | .auth _ | .authResult _ | .report _ => True
  | _ => False

namespace Frame.Transmission

variable {t left : Transmission} {write : WriteReply} {flush : FlushReply}

theorem not_dead_of_wrote {b : Bytes} (h : t.advance write flush = .wrote b left) :
    ¬ write.Dead := by
  unfold advance at h
  split at h
  · split at h <;> nomatch h
  · split at h
    · nomatch h
    · nomatch h
    · rintro rfl
      exact ‹0 = 0 → False› rfl
    · nomatch h

private theorem dead_of_failed {why : TransportError} (h : t.advance write flush = .failed why) :
    t.rest = [] ∨ write.Dead := by
  unfold advance at h
  split at h
  · exact .inl ‹_›
  · split at h
    · nomatch h
    · exact .inr rfl
    · nomatch h
    · exact .inr trivial

end Frame.Transmission

namespace Handshake

/-! ## What a machine says -/

namespace Machine

/-- A reaction says only what a node may say in a handshake, and the machine stays the same node. -/
structure Keeps (own : Hello) (r : Reaction) : Prop where
  opening : ∀ said, .send said ∈ r.1 → said.Opening own
  own_eq : r.2.own = own

variable {own : Hello} {m : Machine} {r : Reaction}

theorem Stops.keeps (h : m.Stops r) : Keeps m.own r where
  opening said hsaid := by
    have hparting := h.parting _ hsaid
    cases said with
    | hello h => exact hparting
    | report r => trivial
    | authResult v => trivial
    | _ => exact hparting.elim
  own_eq := h.own_eq

private theorem keeps_onMessage (m : Machine) (msg : Message) : Keeps m.own (m.onMessage msg) := by
  cases hrole : m.role with
  | server checker =>
    have hserves := serves_onMessage hrole msg
    generalize m.onMessage msg = r at hserves ⊢
    cases hserves with
    | stops h => exact h.keeps
    | greets _ _ => exact ⟨by simp [Message.Opening], rfl⟩
    | verifies _ _ _ _ => exact ⟨by simp, rfl⟩
  | client prover =>
    have hattends := attends_onMessage hrole msg
    generalize m.onMessage msg = r at hattends ⊢
    cases hattends with
    | stops h => exact h.keeps
    | greets _ _ => exact ⟨by simp, rfl⟩
    | answers _ => exact ⟨by simp [Message.Opening], rfl⟩
    | joins _ => exact ⟨by simp, rfl⟩

theorem keeps_start (m : Machine) : Keeps m.own m.start := by
  unfold start
  split
  · exact ⟨by simp [Message.Opening], rfl⟩
  · exact ⟨by simp [idle], rfl⟩

private theorem keeps_admitted (m : Machine) (nonce : Nonce) : Keeps m.own (m.admitted nonce) := by
  unfold admitted
  split
  · exact ⟨by simp [Message.Opening], rfl⟩
  · exact ⟨by simp [idle], rfl⟩

private theorem keeps_registered (m : Machine) (id : SessionId) :
    Keeps m.own (m.registered id) := by
  unfold registered
  split
  · exact ⟨by simp [Message.Opening], rfl⟩
  · exact ⟨by simp [idle], rfl⟩

end Machine

/-! ## What is on the stream -/

/-- The body of a frame with a message that a node may say in a handshake. -/
def Utterance (own : Hello) (l : Link) (body : Bytes) : Prop :=
  ∃ seq said, Message.Opening own said ∧ (l.envelope seq said).encode = .ok body

/-- These bytes begin a stream of frames, each with a message of the handshake. -/
def WellFramed (own : Hello) (l : Link) (b : Bytes) : Prop :=
  ∃ bodies, (∀ body ∈ bodies, Utterance own l body) ∧ b <+: Frame.stream bodies

/-- After whole frames, one breaks off, and the report of a used-up budget follows at once. -/
inductive Spliced (own : Hello) (l : Link) (budget : Duration) : Bytes → Prop where
  | intro {bodies : List Bytes} {cut told begun left tail : Bytes} {seq : UInt32} {r : Report}
      (hbodies : ∀ body ∈ bodies, Utterance own l body) (hcut : Utterance own l cut)
      (hsplit : Frame.wrap cut = begun ++ left) (hbegun : begun ≠ []) (hleft : left ≠ [])
      (hreport : (Failure.timeout budget.millis).report? = some r)
      (htold : (l.envelope seq (.report r)).encode = .ok told)
      (htail : tail <+: Frame.wrap told) (hne : tail ≠ []) :
      Spliced own l budget (Frame.stream bodies ++ begun ++ tail)

variable {own : Hello} {l : Link} {budget : Duration}

theorem Utterance.short {body : Bytes} (h : Utterance own l body) : Frame.Short body := by
  obtain ⟨seq, said, -, hencode⟩ := h
  exact Envelope.short_of_encode hencode

/-- A frame that is read as a hello has the node's own one. -/
theorem Utterance.encode_of_hello {body : Bytes} {e : Envelope} (h : Utterance own l body)
    (hdecode : Envelope.decode body = .ok e) (hkind : e.message.kind = .hello) :
    (l.envelope e.seq (.hello own)).encode = .ok body := by
  obtain ⟨seq, said, hsaid, hencode⟩ := h
  obtain ⟨-, -, hseq, hsame⟩ := Envelope.header_of_decode [] hencode (by rwa [List.append_nil])
  cases said with
  | hello h =>
    obtain rfl : h = own := hsaid
    exact hseq ▸ hencode
  | _ => exact absurd (hsame.symm.trans hkind) (by simp [Link.envelope, Message.kind])

/-- **A reader of a well-framed stream is told nothing that was not said.** A frame that it takes
out, whatever part of the stream has arrived, is one with a message of the handshake, and what is
left is again well framed. -/
theorem WellFramed.of_takeFrame {r r' : Frame.Reader} {body more : Bytes}
    (h : WellFramed own l (r.buffered ++ more)) (htake : r.takeFrame = .ok (some (body, r'))) :
    Utterance own l body ∧ WellFramed own l (r'.buffered ++ more) := by
  obtain ⟨bodies, hbodies, rest, hstream⟩ := h
  rw [List.append_assoc] at hstream
  obtain ⟨others, rfl, hothers⟩ :=
    Frame.Reader.of_takeFrame (fun b hb ↦ (hbodies b hb).short) hstream htake
  refine ⟨hbodies body List.mem_cons_self, others, fun b hb ↦ hbodies b (List.mem_cons_of_mem _ hb),
    rest, ?_⟩
  rw [List.append_assoc]
  exact hothers

def Effect.written : Effect → Bytes
  | .wrote b => b
  | _ => []

def written (effects : List Effect) : Bytes := effects.flatMap Effect.written

@[simp] theorem written_nil : written [] = [] := rfl

@[simp] theorem written_cons (effect : Effect) (effects : List Effect) :
    written (effect :: effects) = effect.written ++ written effects := rfl

@[simp] theorem written_append (before after : List Effect) :
    written (before ++ after) = written before ++ written after := List.flatMap_append

namespace Conduct

/-! ## What a move does to the stream -/

/-- What the stream has not taken of the frame on its way. -/
def unsent (c : Conduct) : Bytes :=
  match c.phase with
  | .sending t _ | .farewell t _ _ => t.rest
  | _ => []

/-- What is still to be done after the frame on its way. -/
def pending (c : Conduct) : List Action :=
  match c.phase with
  | .acting pending | .sending _ pending => pending
  | _ => []

/-- The budget was used up, or the handshake is over: no frame but the farewell is written. -/
def Parting (c : Conduct) : Prop :=
  match c.phase with
  | .acting _ | .sending .. => False
  | _ => True

/-- Nothing is written any more. -/
def Silent (c : Conduct) : Prop :=
  match c.phase with
  | .shutting _ | .ended _ => True
  | _ => False

/-- The conduct has budget left to send what is on its way, but now it is used up. -/
def CutAt (c : Conduct) (now : Instant) : Prop :=
  ∃ t pending, c.phase = .sending t pending ∧ t.rest ≠ [] ∧ c.deadline ≤ now

/-- A conduct is that of this node, with this budget, over a link like this one. -/
structure Belongs (own : Hello) (l : Link) (budget : Duration) (deadline : Instant) (c : Conduct) :
    Prop where
  own_eq : c.machine.own = own
  opening : ∀ said, .send said ∈ c.pending → said.Opening own
  version_eq : c.link.version = l.version
  /-- Only the end of a handshake binds its link. -/
  binding_eq : ¬ c.Silent → c.link.binding = l.binding
  budget_eq : c.budget = budget
  deadline_eq : c.deadline = deadline

/-- What a move can be for the stream. -/
inductive Writes (own : Hello) (l : Link) (c : Conduct) (o : Offer) (c' : Conduct) :
    Effect → Prop where
  | rests {effect : Effect} (hwritten : effect.written = []) (hbefore : c.unsent = [])
      (hafter : c'.unsent = []) (hparting : c.Parting → c'.Silent) : Writes own l c o c' effect
  | begins {body : Bytes} (hbefore : c.unsent = []) (hopen : ¬ c.Parting)
      (hbody : Utterance own l body) (hafter : c'.unsent = Frame.wrap body) :
      Writes own l c o c' .none
  | goesOn {b : Bytes} (hunsent : c.unsent = b ++ c'.unsent) (halive : ¬ o.write.Dead)
      (hloud : ¬ c.Silent) (hparting : c.Parting → c'.Parting) : Writes own l c o c' (.wrote b)
  /-- The stream has failed. -/
  | breaks (hdead : o.write.Dead) (hopen : ¬ c.Parting) (hafter : c'.unsent = []) :
      Writes own l c o c' .none
  | ceases (hsilent : c'.Silent) (hafter : c'.unsent = []) : Writes own l c o c' .none
  /-- The farewell takes the place of a frame on its way. -/
  | cuts {told : Bytes} {seq : UInt32} {r : Report} (hopen : ¬ c.Parting)
      (hcut : c.unsent ≠ [] → c.CutAt o.now)
      (hreport : (Failure.timeout c.budget.millis).report? = some r)
      (htold : (l.envelope seq (.report r)).encode = .ok told) (hparting : c'.Parting)
      (hafter : c'.unsent = Frame.wrap told) : Writes own l c o c' .none

variable {c c' : Conduct} {o : Offer} {effect : Effect} {deadline : Instant}

private theorem Belongs.utterance (hc : c.Belongs own l budget deadline) {said : Message}
    {pending : List Action} {seq : UInt32} {body : Bytes}
    (hphase : c.phase = .acting (.send said :: pending))
    (hbody : (c.link.envelope seq said).encode = .ok body) : Utterance own l body := by
  refine ⟨seq, said, hc.opening said (by simp [Conduct.pending, hphase]), ?_⟩
  rwa [Link.envelope, hc.version_eq, hc.binding_eq (by simp [Silent, hphase])] at hbody

theorem unsent_sendFailed (c : Conduct) (pending : List Action) (why : Failure) :
    (c.sendFailed pending why).unsent = [] := by
  unfold sendFailed
  split <;> rfl

theorem rests_of_acting {pending : List Action} (hphase : c.phase = .acting pending)
    (hafter : c'.unsent = []) (hwritten : effect.written = []) : Writes own l c o c' effect :=
  .rests hwritten (by simp [unsent, hphase]) hafter (by simp [Parting, hphase])

private theorem writes_of_does (hc : c.Belongs own l budget deadline) (h : c.Does o c' effect) :
    Writes own l c o c' effect := by
  cases h with
  | tells hphase hsends =>
    cases hsends with
    | begins hseq hbody ht =>
      exact .begins (by simp [unsent, hphase]) (by simp [Parting, hphase])
        (hc.utterance hphase hbody) (by simp [unsent, ht])
    | refuses hle =>
      exact rests_of_acting hphase (unsent_sendFailed ..) rfl
  | placed hphase _ _ => exact rests_of_acting hphase rfl rfl
  | refused hphase _ _ => exact rests_of_acting hphase rfl rfl
  | registered hphase _ _ _ _ => exact rests_of_acting hphase rfl rfl
  | rejected hphase _ _ _ _ => exact rests_of_acting hphase rfl rfl
  | unasked hphase _ => exact rests_of_acting hphase rfl rfl
  | establishes hphase _ => exact rests_of_acting hphase rfl rfl
  | closes hphase => exact .ceases trivial rfl
  | reads hphase _ => exact rests_of_acting hphase (by simp [unsent, hphase]) rfl
  | skips hphase _ => exact rests_of_acting hphase (by simp [unsent, hphase]) rfl
  | hears hphase _ => exact rests_of_acting hphase rfl rfl
  | deafened hphase _ => exact rests_of_acting hphase rfl rfl
  | writes hphase hwrote =>
    refine .goesOn ?_ (Frame.Transmission.not_dead_of_wrote hwrote) (by simp [Silent, hphase])
      (by simp [Parting, hphase])
    simpa only [unsent, hphase] using Frame.Transmission.rest_of_wrote hwrote
  | completes hphase hfinished =>
    have hrest := Frame.Transmission.rest_of_finished hfinished
    exact .rests rfl (by simp [unsent, hphase, hrest]) rfl (by simp [Parting, hphase])
  | breaks hphase hfailed =>
    -- It is the flush that failed, when all was written, and else the stream is dead.
    rcases Frame.Transmission.dead_of_failed hfailed with hrest | hdead
    · exact .rests rfl (by simp [unsent, hphase, hrest]) (unsent_sendFailed ..)
        (by simp [Parting, hphase])
    · exact .breaks hdead (by simp [Parting, hphase]) (unsent_sendFailed ..)
  | expires hwaits hdue hexpires =>
    cases hexpires with
    | silent _ => exact .ceases trivial rfl
    | begins hreport hseq hbody ht =>
      cases hwaits with
      | toHear hphase _ =>
        rw [Link.envelope, hc.version_eq, hc.binding_eq (by simp [Silent, hphase])] at hbody
        exact .cuts (by simp [Parting, hphase]) (by simp [unsent, hphase]) hreport hbody trivial
          (by simp [unsent, ht])
      | toSend hphase _ =>
        rw [Link.envelope, hc.version_eq, hc.binding_eq (by simp [Silent, hphase])] at hbody
        refine .cuts (by simp [Parting, hphase]) (fun hne ↦ ⟨_, _, hphase, ?_, hdue⟩) hreport hbody
          trivial (by simp [unsent, ht])
        simpa only [unsent, hphase] using hne
  | bids hphase hwrote =>
    refine .goesOn ?_ (Frame.Transmission.not_dead_of_wrote hwrote) (by simp [Silent, hphase])
      (fun _ ↦ trivial)
    simpa only [unsent, hphase] using Frame.Transmission.rest_of_wrote hwrote
  | parted hphase hfinished => exact .ceases trivial rfl
  | abandons hphase _ => exact .ceases trivial rfl
  | shuts hphase => exact .rests rfl (by simp [unsent, hphase]) rfl (fun _ ↦ trivial)

/-! ## One move after another -/

namespace Belongs

theorem opening_acting (hc : c.Belongs own l budget deadline) {a : Action}
    {pending : List Action} (hphase : c.phase = .acting (a :: pending)) :
    ∀ said, .send said ∈ pending → said.Opening own :=
  fun said hsaid ↦ hc.opening said (by simp [Conduct.pending, hphase, hsaid])

theorem opening_sending (hc : c.Belongs own l budget deadline) {t : Frame.Transmission}
    {pending : List Action} (hphase : c.phase = .sending t pending) :
    ∀ said, .send said ∈ pending → said.Opening own :=
  fun said hsaid ↦ hc.opening said (by simp [Conduct.pending, hphase, hsaid])

theorem goesOn (hc : c.Belongs own l budget deadline) (hloud : ¬ c.Silent)
    (hpending : ∀ said, .send said ∈ c'.pending → said.Opening own)
    (h : c' = { c with link := { c.link with
      outbound := c'.link.outbound, bytesSent := c'.link.bytesSent }, phase := c'.phase }) :
    c'.Belongs own l budget deadline := by
  refine ⟨?_, hpending, ?_, fun _ ↦ ?_, ?_, ?_⟩ <;> rw [h]
  · exact hc.own_eq
  · exact hc.version_eq
  · exact hc.binding_eq hloud
  · exact hc.budget_eq
  · exact hc.deadline_eq

theorem react (hc : c.Belongs own l budget deadline) {pending : List Action}
    {r : Machine.Reaction} (hloud : ¬ c.Silent)
    (hpending : ∀ said, .send said ∈ pending → said.Opening own) (hr : Machine.Keeps own r) :
    (c.react pending r).Belongs own l budget deadline := by
  refine ⟨hr.own_eq, ?_, hc.version_eq, fun _ ↦ hc.binding_eq hloud, hc.budget_eq, hc.deadline_eq⟩
  intro said hsaid
  rcases List.mem_append.mp hsaid with hsaid | hsaid
  · exact hpending said hsaid
  · exact hr.opening said hsaid

theorem sendFailed (hc : c.Belongs own l budget deadline) {pending : List Action} (why : Failure)
    (hloud : ¬ c.Silent) (hpending : ∀ said, .send said ∈ pending → said.Opening own) :
    (c.sendFailed pending why).Belongs own l budget deadline := by
  unfold Conduct.sendFailed
  split
  · exact hc.goesOn hloud hpending rfl
  · exact hc.react hloud (by simp) (hc.own_eq ▸ (Machine.stops_abort _ why).keeps)

/-- A link that goes on receiving or sending is still a link like this one. -/
theorem withLink (hc : c.Belongs own l budget deadline) {link : Link}
    (hversion : link.version = c.link.version) (hbinding : link.binding = c.link.binding) :
    Belongs own l budget deadline { c with link } :=
  ⟨hc.own_eq, hc.opening, hversion.trans hc.version_eq,
    fun hloud ↦ hbinding.trans (hc.binding_eq hloud), hc.budget_eq, hc.deadline_eq⟩

private theorem withOutbound (hc : c.Belongs own l budget deadline) (outbound : Sequence.Counter) :
    Belongs own l budget deadline { c with link := { c.link with outbound } } :=
  hc.withLink rfl rfl

theorem received (hc : c.Belongs own l budget deadline) {reply : ReadReply} {arrival : Link.Arrival}
    {link : Link} (h : c.link.receive reply = (arrival, link)) :
    Belongs own l budget deadline { c with link } := by
  obtain ⟨reader, inbound, count, rfl⟩ := Link.outgoing_receive h
  exact hc.withLink rfl rfl

/-- The handshake stays that of the same node with the same budget. -/
theorem does (hc : c.Belongs own l budget deadline) (h : c.Does o c' effect) :
    c'.Belongs own l budget deadline := by
  have hfail (why : Failure) : Machine.Keeps own (c.machine.fail why) :=
    hc.own_eq ▸ (Machine.stops_fail _ why).keeps
  cases h with
  | tells hphase hsends =>
    have hloud : ¬ c.Silent := by simp [Silent, hphase]
    have hrest := hc.opening_acting hphase
    cases hsends with
    | begins => exact hc.goesOn hloud hrest rfl
    | refuses => exact (hc.withOutbound _).sendFailed _ hloud hrest
  | placed hphase =>
    exact hc.react (by simp [Silent, hphase]) (hc.opening_acting hphase)
      (hc.own_eq ▸ Machine.keeps_admitted ..)
  | registered hphase =>
    exact hc.react (by simp [Silent, hphase]) (hc.opening_acting hphase)
      (hc.own_eq ▸ Machine.keeps_registered ..)
  | refused hphase | rejected hphase | unasked hphase =>
    exact hc.react (by simp [Silent, hphase]) (hc.opening_acting hphase) (hfail _)
  | establishes hphase =>
    exact ⟨hc.own_eq, by simp [Conduct.pending], hc.version_eq, fun hloud ↦ absurd trivial hloud,
      hc.budget_eq, hc.deadline_eq⟩
  | closes hphase => exact hc.goesOn (by simp [Silent, hphase]) (by simp [Conduct.pending]) rfl
  | reads _ hreceive | skips _ hreceive => exact hc.received hreceive
  | hears hphase hreceive =>
    exact (hc.received hreceive).react (by simp [Silent, hphase]) (by simp)
      (hc.own_eq ▸ Machine.keeps_onMessage ..)
  | deafened hphase hreceive =>
    exact (hc.received hreceive).react (by simp [Silent, hphase]) (by simp) (hfail _)
  | writes hphase =>
    exact hc.goesOn (by simp [Silent, hphase]) (hc.opening_sending hphase) rfl
  | completes hphase =>
    exact hc.goesOn (by simp [Silent, hphase]) (hc.opening_sending hphase) rfl
  | breaks hphase => exact hc.sendFailed _ (by simp [Silent, hphase]) (hc.opening_sending hphase)
  | expires hwaits _ hexpires =>
    have hloud : ¬ c.Silent := by cases hwaits <;> simp [Silent, *]
    cases hexpires <;>
      exact ⟨(hfail _).own_eq, by simp [Conduct.pending], hc.version_eq,
        fun _ ↦ hc.binding_eq hloud, hc.budget_eq, hc.deadline_eq⟩
  | bids hphase | parted hphase | abandons hphase =>
    exact hc.goesOn (by simp [Silent, hphase]) (by simp [Conduct.pending]) rfl
  | shuts hphase =>
    exact ⟨hc.own_eq, by simp [Conduct.pending], hc.version_eq, fun hloud ↦ absurd trivial hloud,
      hc.budget_eq, hc.deadline_eq⟩

end Belongs

/-- How the bytes written so far relate to what the conduct is about to write. `dead` says that the
stream has failed, and `cut` that the budget was used up while a frame was on its way. -/
inductive Standing (own : Hello) (l : Link) (budget : Duration) (dead cut : Prop) (c : Conduct)
    (b : Bytes) : Prop where
  /-- All frames that were begun are out. -/
  | between {bodies : List Bytes} (hbodies : ∀ body ∈ bodies, Utterance own l body)
      (hb : b = Frame.stream bodies) (hunsent : c.unsent = [])
  | amid {bodies : List Bytes} {body : Bytes} (begun : Bytes)
      (hbodies : ∀ body ∈ bodies, Utterance own l body) (hbody : Utterance own l body)
      (hb : b = Frame.stream bodies ++ begun)
      (hframe : Frame.wrap body = begun ++ c.unsent)
  /-- Nothing more will be written. -/
  | spent (hframed : WellFramed own l b) (hspent : dead ∨ c.Silent)
  /-- The report of a used-up budget goes out after a part of a frame. -/
  | splices {bodies : List Bytes} {body begun left told : Bytes} {seq : UInt32} {r : Report}
      (sent : Bytes) (hbodies : ∀ body ∈ bodies, Utterance own l body)
      (hbody : Utterance own l body)
      (hsplit : Frame.wrap body = begun ++ left) (hbegun : begun ≠ []) (hleft : left ≠ [])
      (hreport : (Failure.timeout budget.millis).report? = some r)
      (htold : (l.envelope seq (.report r)).encode = .ok told)
      (hb : b = Frame.stream bodies ++ begun ++ sent)
      (hrest : sent ++ c.unsent <+: Frame.wrap told) (hparting : c.Parting) (hcut : cut) :
      Standing own l budget dead cut c b

section Standing

variable {dead dead' cut cut' : Prop} {b : Bytes}

theorem parting_of_silent (h : c.Silent) : c.Parting := by
  unfold Silent at h
  unfold Parting
  cases hphase : c.phase with
  | acting _ => simp [hphase] at h
  | sending _ _ => simp [hphase] at h
  | farewell _ _ _ => trivial
  | shutting _ => trivial
  | ended _ => trivial

theorem utterance_report {seq : UInt32} {r : Report} {told : Bytes}
    (h : (l.envelope seq (.report r)).encode = .ok told) : Utterance own l told :=
  ⟨seq, .report r, trivial, h⟩

theorem utterances_concat {bodies : List Bytes} {body : Bytes}
    (hbodies : ∀ body ∈ bodies, Utterance own l body) (hbody : Utterance own l body) :
    ∀ b ∈ bodies ++ [body], Utterance own l b := by
  intro b hb
  rcases List.mem_append.mp hb with hb | hb
  · exact hbodies b hb
  · exact List.mem_singleton.mp hb ▸ hbody

theorem wellFramed_append {bodies : List Bytes} {body begun left : Bytes}
    (hbodies : ∀ body ∈ bodies, Utterance own l body) (hbody : Utterance own l body)
    (hsplit : Frame.wrap body = begun ++ left) :
    WellFramed own l (Frame.stream bodies ++ begun) := by
  refine ⟨bodies ++ [body], utterances_concat hbodies hbody, left, ?_⟩
  simp [hsplit]

theorem Standing.imp (h : Standing own l budget dead cut c b) (hdead : dead → dead')
    (hcut : cut → cut') : Standing own l budget dead' cut' c b := by
  cases h with
  | between hbodies hb hunsent => exact .between hbodies hb hunsent
  | amid begun hbodies hbody hb hframe => exact .amid begun hbodies hbody hb hframe
  | spent hframed hspent => exact .spent hframed (hspent.imp_left hdead)
  | splices sent hbodies hbody hsplit hbegun hleft hreport htold hb hrest hparting h =>
    exact .splices sent hbodies hbody hsplit hbegun hleft hreport htold hb hrest hparting (hcut h)

/-- Between two frames, a move leaves the bytes well framed. -/
theorem Standing.does_between {bodies : List Bytes}
    (hbodies : ∀ body ∈ bodies, Utterance own l body) (hunsent : c.unsent = [])
    (h : Writes own l c o c' effect) :
    Standing own l budget dead cut c' (Frame.stream bodies ++ effect.written) := by
  cases h with
  | rests hwritten _ hafter _ => exact .between hbodies (by rw [hwritten, List.append_nil]) hafter
  | begins _ _ hbody hafter =>
    exact .amid [] hbodies hbody rfl (by rw [hafter, List.nil_append])
  | goesOn hsplit _ _ _ =>
    obtain ⟨rfl, hafter⟩ := List.append_eq_nil_iff.mp (hsplit.symm.trans hunsent)
    exact .between hbodies (List.append_nil _) hafter
  | breaks _ _ hafter => exact .between hbodies (List.append_nil _) hafter
  | ceases _ hafter => exact .between hbodies (List.append_nil _) hafter
  | cuts _ _ _ htold _ hafter =>
    exact .amid [] hbodies (utterance_report htold) rfl (by rw [hafter, List.nil_append])

theorem Standing.does (h : Standing own l budget dead cut c b) (hbudget : c.budget = budget)
    (hdead : dead → o.write.Dead) (hwrites : Writes own l c o c' effect) :
    Standing own l budget (dead ∨ o.write.Dead) (cut ∨ c.CutAt o.now) c' (b ++ effect.written) := by
  cases h with
  | between hbodies hb hunsent => exact hb ▸ does_between hbodies hunsent hwrites
  | @amid bodies body begun hbodies hbody hb hframe =>
    subst hb
    by_cases hunsent : c.unsent = []
    · -- Nothing of the frame is left, so this is the same as between two frames.
      have hwhole : Frame.stream bodies ++ begun = Frame.stream (bodies ++ [body]) := by
        simp [hframe, hunsent]
      rw [hwhole]
      exact does_between (utterances_concat hbodies hbody) hunsent hwrites
    · cases hwrites with
      | rests _ hbefore _ _ => exact absurd hbefore hunsent
      | begins hbefore _ _ _ => exact absurd hbefore hunsent
      | goesOn hsplit _ _ _ =>
        exact .amid (begun ++ _) hbodies hbody (List.append_assoc ..)
          (by simp [hframe, hsplit, Effect.written])
      | breaks hdied _ _ =>
        exact .spent (by simpa [Effect.written] using wellFramed_append hbodies hbody hframe)
          (.inl (.inr hdied))
      | ceases hsilent _ =>
        exact .spent (by simpa [Effect.written] using wellFramed_append hbodies hbody hframe)
          (.inr hsilent)
      | @cuts told _ _ _ hcut hreport htold hparting hafter =>
        -- Only a frame of which something is out is torn by the report.
        by_cases hbegun : begun = []
        · exact .amid [] hbodies (utterance_report htold)
            (by simp [hbegun, Effect.written]) (by rw [hafter, List.nil_append])
        · exact .splices [] hbodies hbody hframe hbegun hunsent (hbudget ▸ hreport) htold
            (by simp [Effect.written]) (by simp [hafter]) hparting (.inr (hcut hunsent))
  | spent hframed hspent =>
    cases hwrites with
    | rests hwritten _ _ hparting =>
      rw [hwritten, List.append_nil]
      exact .spent hframed (hspent.imp .inl fun hsilent ↦ hparting (parting_of_silent hsilent))
    | goesOn _ halive hloud _ => exact (hspent.elim (halive ∘ hdead) hloud).elim
    | ceases hsilent _ => exact .spent (by simpa [Effect.written] using hframed) (.inr hsilent)
    | begins _ hopen _ _ | breaks _ hopen _ | cuts hopen _ _ _ _ _ =>
      have hdied : dead := hspent.resolve_right (hopen ∘ parting_of_silent)
      exact .spent (by simpa [Effect.written] using hframed) (.inl (.inl hdied))
  | splices sent hbodies hbody hsplit hbegun hleft hreport htold hb hrest hparting hcut =>
    have hsent := (List.prefix_append _ _).trans hrest
    cases hwrites with
    | rests hwritten _ hafter hsilent =>
      exact .splices sent hbodies hbody hsplit hbegun hleft hreport htold (by simp [hb, hwritten])
        (by simpa [hafter] using hsent) (parting_of_silent (hsilent hparting)) (.inl hcut)
    | goesOn hsplits _ _ hstays =>
      exact .splices (sent ++ _) hbodies hbody hsplit hbegun hleft hreport htold
        (by rw [hb, List.append_assoc]) (by simpa [hsplits, Effect.written] using hrest)
        (hstays hparting) (.inl hcut)
    | ceases hsilent hafter =>
      exact .splices sent hbodies hbody hsplit hbegun hleft hreport htold
        (by simp [hb, Effect.written])
        (by simpa [hafter] using hsent) (parting_of_silent hsilent) (.inl hcut)
    | begins _ hopen _ _ | breaks _ hopen _ | cuts hopen _ _ _ _ _ => exact absurd hparting hopen

/-- Either what was written is well framed, or a report was spliced in. -/
theorem Standing.wellFramed_or_spliced (h : Standing own l budget dead cut c b) :
    WellFramed own l b ∨ Spliced own l budget b ∧ cut := by
  cases h with
  | between hbodies hb _ => exact .inl ⟨_, hbodies, hb ▸ List.prefix_refl _⟩
  | amid _ hbodies hbody hb hframe => exact .inl (hb ▸ wellFramed_append hbodies hbody hframe)
  | spent hframed _ => exact .inl hframed
  | splices sent hbodies hbody hsplit hbegun hleft hreport htold hb hrest _ hcut =>
    subst hb
    by_cases hsent : sent = []
    · exact .inl (by simpa [hsent] using wellFramed_append hbodies hbody hsplit)
    · exact .inr ⟨.intro hbodies hbody hsplit hbegun hleft hreport htold
        ((List.prefix_append _ _).trans hrest) hsent, hcut⟩

end Standing

/-! ## Runs -/

/-- The stream fails for good. -/
def Steady (offers : List Offer) : Prop :=
  offers.Pairwise fun o later ↦ o.write.Dead → later.write.Dead

/-- At one of these offers the budget is used up while a frame is on its way. -/
def CutDuring (c : Conduct) (offers : List Offer) : Prop :=
  ∃ before o after, offers = before ++ o :: after ∧ (c.run before).2.CutAt o.now

theorem run_cons_of_step {rest : List Offer} (h : c.step o = some (c', effect)) :
    c.run (o :: rest) = (effect :: (c'.run rest).1, (c'.run rest).2) := by
  rw [run, h]

theorem run_cons_of_none {rest : List Offer} (h : c.step o = none) :
    c.run (o :: rest) = c.run rest := by
  rw [run, h]

private theorem cutDuring_cons {rest : List Offer} (h : (c.run [o]).2.CutDuring rest) :
    c.CutDuring (o :: rest) := by
  obtain ⟨before, o', after, rfl, hcut⟩ := h
  refine ⟨o :: before, o', after, rfl, ?_⟩
  rwa [← List.singleton_append, run_append]

/-- The move that an offer gives, if any, keeps the bytes as they must be. -/
theorem standing_offer {dead cut : Prop} {b : Bytes} (hc : c.Belongs own l budget deadline)
    (hstanding : Standing own l budget dead cut c b) (hdead : dead → o.write.Dead) :
    (c.run [o]).2.Belongs own l budget deadline ∧
      Standing own l budget (dead ∨ o.write.Dead) (cut ∨ c.CutAt o.now) (c.run [o]).2
        (b ++ written (c.run [o]).1) := by
  cases hstep : c.step o with
  | none =>
    rw [run_cons_of_none hstep, run_nil, written_nil, List.append_nil]
    exact ⟨hc, hstanding.imp .inl .inl⟩
  | some moved =>
    have hdoes := does_step hstep
    rw [run_cons_of_step hstep, run_nil, written_cons, written_nil, List.append_nil]
    exact ⟨hc.does hdoes, hstanding.does hc.budget_eq hdead (writes_of_does hc hdoes)⟩

private theorem standing_run {dead cut : Prop} {b : Bytes} (hc : c.Belongs own l budget deadline)
    (hstanding : Standing own l budget dead cut c b) {offers : List Offer}
    (hdead : dead → ∀ o ∈ offers, o.write.Dead) (hsteady : Steady offers) :
    (c.run offers).2.Belongs own l budget deadline ∧
      Standing own l budget True (cut ∨ c.CutDuring offers) (c.run offers).2
        (b ++ written (c.run offers).1) := by
  induction offers generalizing c b dead cut with
  | nil =>
    rw [run_nil, written_nil, List.append_nil]
    exact ⟨hc, hstanding.imp (fun _ ↦ trivial) .inl⟩
  | cons o rest ih =>
    obtain ⟨hlater, hrest⟩ := List.pairwise_cons.mp hsteady
    obtain ⟨hc, hstanding⟩ :=
      standing_offer hc hstanding fun h ↦ hdead h o List.mem_cons_self
    have hdead : dead ∨ o.write.Dead → ∀ later ∈ rest, later.write.Dead := by
      rintro (h | h) later hmem
      · exact hdead h later (List.mem_cons_of_mem o hmem)
      · exact hlater later hmem h
    obtain ⟨hc, hstanding⟩ := ih hc hstanding hdead hrest
    rw [← List.singleton_append, run_append, written_append, ← List.append_assoc]
    refine ⟨hc, hstanding.imp id ?_⟩
    rintro ((hcut | hcut) | hcut)
    · exact .inl hcut
    · exact .inr ⟨[], o, rest, rfl, hcut⟩
    · exact .inr (cutDuring_cons hcut)

theorem belongs_start (m : Machine) (l : Link) (hosting : Bool) (budget : Duration)
    (now : Instant) :
    (start m l hosting budget now).Belongs m.own l budget (now + budget) where
  own_eq := m.keeps_start.own_eq
  opening := m.keeps_start.opening
  version_eq := rfl
  binding_eq _ := rfl
  budget_eq := rfl
  deadline_eq := rfl

theorem standing_run_start (m : Machine) (l : Link) (hosting : Bool) (budget : Duration)
    (now : Instant) {offers : List Offer} (hsteady : Steady offers) :
    let c := start m l hosting budget now
    (c.run offers).2.Belongs m.own l budget (now + budget) ∧
      Standing m.own l budget True (c.CutDuring offers) (c.run offers).2
        (written (c.run offers).1) := by
  have hfresh : Standing m.own l budget False False (start m l hosting budget now) [] :=
    .between (List.forall_mem_nil _) rfl rfl
  obtain ⟨hc, hstanding⟩ :=
    standing_run (belongs_start m l hosting budget now) hfresh False.elim hsteady
  exact ⟨hc, hstanding.imp id fun h ↦ h.resolve_left id⟩

/-- **What a handshake puts on the stream.** Whatever the stream and the registry offer and when,
what is written begins a stream of frames with messages of the handshake; or else the budget was
used up while such a frame was on its way, and the report of that follows a part of it. -/
theorem framed_or_spliced (m : Machine) (l : Link) (hosting : Bool) (budget : Duration)
    (now : Instant) {offers : List Offer} (hsteady : Steady offers) :
    let c := start m l hosting budget now
    WellFramed m.own l (written (c.run offers).1) ∨
      Spliced m.own l budget (written (c.run offers).1) ∧ c.CutDuring offers := by
  intro c
  obtain ⟨-, hstanding⟩ := standing_run_start m l hosting budget now hsteady
  exact hstanding.wellFramed_or_spliced

/-- A client with no budget gets out the first thirty-six bytes of its hello and then, when the
stream takes bytes again, the report of that. What was written is read as the hello of a node with
another name, so it is not well framed. -/
theorem renamed_by_farewell :
    let own : Hello := ⟨⟨1, 0⟩, ⟨⟨List.replicate 16 7, rfl⟩, "client", 1⟩⟩
    let name := "c\u0000\u0000\u00000\u0001"
    let other : Hello := { own with identity := { own.identity with name } }
    let l := Link.new 1 65536
    let offer (write : WriteReply) : Offer :=
      ⟨0, .notReady, write, .finished, .ok (), .zero, fun _ _ ↦ .error .authFailed⟩
    let offers := [offer .notReady, offer (.accepts 36), offer .notReady, offer (.accepts 100)]
    let c := start (.fresh (.client ⟨fun nonce _ ↦ nonce.bytes⟩) own) l false 0 0
    let b := written (c.run offers).1
    Steady offers ∧ (Spliced own l 0 b ∧ c.CutDuring offers) ∧ ¬ WellFramed own l b ∧
      ({ l with reader := l.reader.feed b }.receive .notReady).1
        = .frame (some (.hello other)) := by
  intro own name other l offer offers c b
  have hsteady : Steady offers := by simp [offers, offer, Steady, WriteReply.Dead]
  have hread : (l.reader.feed b).takeFrame
      = .ok (some ((b.drop 4).take 37, ⟨65536, b.drop 41⟩)) := by decide +kernel
  have hdecode : Envelope.decode ((b.drop 4).take 37) = .ok (l.envelope 1 (.hello other)) := by
    decide +kernel
  have hforged : ¬ WellFramed own l b := by
    intro hframed
    have hall : WellFramed own l ((l.reader.feed b).buffered ++ []) := by rwa [List.append_nil]
    obtain ⟨hutterance, -⟩ := hall.of_takeFrame hread
    exact absurd (hutterance.encode_of_hello hdecode rfl) (by decide +kernel)
  have hspliced := (framed_or_spliced (.fresh (.client ⟨fun nonce _ ↦ nonce.bytes⟩) own) l false 0 0
    hsteady).resolve_left hforged
  exact ⟨hsteady, hspliced, hforged, by decide +kernel⟩

/-- Within its budget a handshake writes nothing but frames. -/
theorem wellFramed_of_in_time (m : Machine) (l : Link) (hosting : Bool) {budget : Duration}
    {now : Instant} {offers : List Offer} (hsteady : Steady offers)
    (htime : ∀ o ∈ offers, o.now < now + budget) :
    WellFramed m.own l (written ((start m l hosting budget now).run offers).1) := by
  obtain ⟨-, hstanding⟩ := standing_run_start m l hosting budget now hsteady
  refine hstanding.wellFramed_or_spliced.resolve_right ?_
  rintro ⟨-, before, o, after, rfl, t, pending, -, -, hdue⟩
  obtain ⟨hbefore, -, -⟩ := List.pairwise_append.mp hsteady
  rw [(standing_run_start m l hosting budget now hbefore).1.deadline_eq] at hdue
  exact absurd (htime o (by simp)) (Nat.not_lt.mpr hdue)

end Conduct

end Handshake

end DeskLink
