import DeskLink.Proofs.Handshake.Holding
import DeskLink.Proofs.Handshake.Wire
import DeskLink.Proofs.Session.InFlight

/-!
# The course of a handshake that goes well

A handshake can fail at any point, but it can succeed in one way only. The client says two messages
and hears three, the server says three and hears two, and what is still to be done at each point is
fixed (`Machine.Calls`, `Machine.Hosts`). A move either goes on along this course or gives it up
(`Conduct.advances_of_does`), and a handshake that has once gone wrong does not recover
(`Conduct.Doomed`).

The two sides differ in their positions and in nothing else, so what is said about moves is said
once, about any positions that are `Lawful`.
-/

namespace DeskLink.Handshake

open Session (Letter)

/-! ## Failing -/

namespace Conduct

/-- The handshake has failed, or will. -/
def Doomed (c : Conduct) : Prop :=
  match c.phase with
  | .acting pending | .sending _ pending =>
    c.machine.stage.terminal = true ∧ ∀ a ∈ pending, a.Parting c.machine.own
  | .farewell .. | .shutting _ => True
  | .ended result => ∃ why, result = .error why

variable {c c' : Conduct} {o : Offer} {effect : Effect} {pending : List Action}

theorem doomed_of_stops {r : Machine.Reaction} (hr : c.machine.Stops r)
    (hpending : ∀ a ∈ pending, a.Parting c.machine.own) : (c.react pending r).Doomed := by
  refine ⟨hr.terminal, fun a ha ↦ ?_⟩
  show a.Parting r.2.own
  rw [hr.own_eq]
  exact (List.mem_append.mp ha).elim (hpending a) (hr.parting a)

theorem doomed_sendFailed (why : Failure) (hpending : c.machine.stage.terminal = true →
    ∀ a ∈ pending, a.Parting c.machine.own) : (c.sendFailed pending why).Doomed := by
  unfold sendFailed
  split
  · rename_i hterminal
    exact ⟨hterminal, hpending hterminal⟩
  · exact doomed_of_stops (Machine.stops_abort _ why) (List.forall_mem_nil _)

theorem doomed_of_expires {now : Instant} (h : c.Expires now c') : c'.Doomed := by
  cases h <;> trivial

theorem Doomed.result?_ne (hc : c.Doomed) (outcome : Outcome) :
    c.result? ≠ some (.ok outcome) := by
  intro hresult
  unfold result? at hresult
  split at hresult
  · rename_i hphase
    simp only [Doomed, hphase, Option.some.inj hresult] at hc
    obtain ⟨why, hwhy⟩ := hc
    nomatch hwhy
  · nomatch hresult

/-- What has gone wrong stays so. -/
theorem Doomed.does (hc : c.Doomed) (h : c.Does o c' effect) : c'.Doomed := by
  cases h with
  | tells hphase hsends =>
    simp only [Doomed, hphase] at hc
    have hrest := fun a ha ↦ hc.2 a (List.mem_cons_of_mem _ ha)
    cases hsends with
    | begins => exact ⟨hc.1, hrest⟩
    | refuses => exact doomed_sendFailed _ fun _ ↦ hrest
  | placed hphase | refused hphase | registered hphase | rejected hphase | establishes hphase =>
    -- None of this is asked of the owner of a machine that is over.
    simp only [Doomed, hphase] at hc
    exact (hc.2 _ List.mem_cons_self).elim
  | unasked hphase ha =>
    simp only [Doomed, hphase] at hc
    rcases ha with rfl | rfl <;> exact (hc.2 _ List.mem_cons_self).elim
  | closes | parted | abandons | bids => trivial
  | shuts => exact ⟨_, rfl⟩
  | reads hphase | skips hphase =>
    simp only [Doomed, hphase] at hc ⊢
    exact hc
  | hears hphase =>
    simp only [Doomed, hphase] at hc
    rw [Machine.onMessage_of_terminal hc.1]
    exact ⟨hc.1, List.forall_mem_nil _⟩
  | deafened => exact doomed_of_stops (Machine.stops_fail _ _) (List.forall_mem_nil _)
  | writes hphase | completes hphase =>
    simp only [Doomed, hphase] at hc
    exact hc
  | breaks hphase =>
    simp only [Doomed, hphase] at hc
    exact doomed_sendFailed _ fun _ ↦ hc.2
  | expires _ _ hexpires => exact doomed_of_expires hexpires

end Conduct

/-! ## Going well -/

/-- How far machines are in a handshake that goes well: what is still to be done, what has been said
before it and what has been heard. -/
abbrev Position := Machine → List Action → List Message → List Message → Prop

/-- What the owner of a machine does leads from position to position, unless the machine stops. -/
structure Position.Lawful (P : Position) : Prop where
  alive : ∀ {m pending said heard}, P m pending said heard → m.stage.terminal = false
  speaks : ∀ {m msg pending said heard}, P m (.send msg :: pending) said heard →
    ¬ msg.Contradictory ∧ P m pending (said ++ [msg]) heard
  reserves : ∀ {m pending said heard}, P m (.reserve :: pending) said heard →
    pending = [] ∧ ∀ nonce, P (m.admitted nonce).2 (m.admitted nonce).1 said heard
  registers : ∀ {m pending said heard}, P m (.register :: pending) said heard →
    pending = [] ∧ ∀ id, P (m.registered id).2 (m.registered id).1 said heard
  establishes : ∀ {m id pending said heard}, P m (.establish id :: pending) said heard →
    pending = [] ∧ m.session = some id
  stays : ∀ {m why pending said heard}, ¬ P m (.close why :: pending) said heard
  hears : ∀ {m said heard}, P m [] said heard → ∀ msg,
    P (m.onMessage msg).2 (m.onMessage msg).1 said (heard ++ [msg]) ∨ m.Stops (m.onMessage msg)

namespace Machine

/-- The positions of a client. -/
inductive Calls (m : Machine) : List Action → List Message → List Message → Prop where
  | greets {own : Hello} (hstage : m.stage = .connected) : Calls m [.send (.hello own)] [] []
  | listens {a : Message} (hstage : m.stage = .connected) : Calls m [] [a] []
  | awaits {a b : Message} (hstage : m.stage = .helloExchanged) : Calls m [] [a] [b]
  | answers {credential : Bytes} {a b c : Message} (hstage : m.stage = .authPending) :
      Calls m [.send (.auth (.response credential))] [a] [b, c]
  | pends {a b c d : Message} (hstage : m.stage = .authPending) : Calls m [] [a, d] [b, c]
  | joins {id : SessionId} {a b c d : Message} (hstage : m.stage = .established)
      (hsession : m.session = some id) :
      Calls m [.establish id] [a, d] [b, c, .authResult ⟨true, some id⟩]

/-- The positions of a server. -/
inductive Hosts (m : Machine) : List Action → List Message → List Message → Prop where
  | listens (hstage : m.stage = .connected) : Hosts m [] [] []
  | greets {own : Hello} {a : Message} (hstage : m.stage = .helloExchanged) :
      Hosts m [.send (.hello own), .reserve] [] [a]
  | asks {a b : Message} (hstage : m.stage = .helloExchanged) : Hosts m [.reserve] [b] [a]
  | challenges {nonce : Nonce} {a b : Message} (hstage : m.stage = .authPending) :
      Hosts m [.send (.auth (.challenge nonce))] [b] [a]
  | awaits {a b c : Message} (hstage : m.stage = .authPending) : Hosts m [] [b, c] [a]
  | registers {a b c d : Message} (hstage : m.stage = .authPending) :
      Hosts m [.register] [b, c] [a, d]
  | accepts {id : SessionId} {a b c d : Message} (hstage : m.stage = .established)
      (hsession : m.session = some id) :
      Hosts m [.send (.authResult ⟨true, some id⟩), .establish id] [b, c] [a, d]
  | establishes {id : SessionId} {a b c d : Message} (hstage : m.stage = .established)
      (hsession : m.session = some id) :
      Hosts m [.establish id] [b, c, .authResult ⟨true, some id⟩] [a, d]

end Machine

/-- A client that goes well. -/
def Position.client : Position := fun m pending said heard ↦
  (∃ prover, m.role = .client prover) ∧ m.Calls pending said heard

/-- A server that goes well. -/
def Position.server : Position := fun m pending said heard ↦
  (∃ checker, m.role = .server checker) ∧ m.Hosts pending said heard

theorem Position.lawful_client : Position.client.Lawful where
  alive := by
    rintro m pending said heard ⟨-, hcalls⟩
    cases hcalls <;> simp_all [Stage.terminal]
  speaks := by
    rintro m msg pending said heard ⟨hrole, hcalls⟩
    cases hcalls with
    | greets hstage => exact ⟨id, hrole, .listens hstage⟩
    | answers hstage => exact ⟨id, hrole, .pends hstage⟩
  reserves := by
    rintro m pending said heard ⟨-, hcalls⟩
    cases hcalls
  registers := by
    rintro m pending said heard ⟨-, hcalls⟩
    cases hcalls
  establishes := by
    rintro m id pending said heard ⟨-, hcalls⟩
    cases hcalls with | joins _ hsession => exact ⟨rfl, hsession⟩
  stays := by
    rintro m why pending said heard ⟨-, hcalls⟩
    cases hcalls
  hears := by
    rintro m said heard ⟨⟨prover, hrole⟩, hcalls⟩ msg
    have hattends := Machine.attends_onMessage hrole msg
    generalize m.onMessage msg = r at hattends
    cases hattends with
    | stops hstops => exact .inr hstops
    | greets hstage =>
      cases hcalls with
      | listens => exact .inl ⟨⟨prover, hrole⟩, .awaits rfl⟩
      | awaits hother | pends hother => simp [hstage] at hother
    | answers hstage =>
      cases hcalls with
      | awaits => exact .inl ⟨⟨prover, hrole⟩, .answers rfl⟩
      | listens hother | pends hother => simp [hstage] at hother
    | joins hstage =>
      cases hcalls with
      | pends => exact .inl ⟨⟨prover, hrole⟩, .joins rfl rfl⟩
      | listens hother | awaits hother => simp [hstage] at hother

theorem Position.lawful_server : Position.server.Lawful where
  alive := by
    rintro m pending said heard ⟨-, hhosts⟩
    cases hhosts <;> simp_all [Stage.terminal]
  speaks := by
    rintro m msg pending said heard ⟨hrole, hhosts⟩
    cases hhosts with
    | greets hstage => exact ⟨id, hrole, .asks hstage⟩
    | challenges hstage => exact ⟨id, hrole, .awaits hstage⟩
    | accepts hstage hsession => exact ⟨fun h ↦ h rfl, hrole, .establishes hstage hsession⟩
  reserves := by
    rintro m pending said heard ⟨⟨checker, hrole⟩, hhosts⟩
    cases hhosts with
    | asks hstage =>
      refine ⟨rfl, fun nonce ↦ ?_⟩
      have hadmitted : m.role.isServer = true ∧ m.stage = .helloExchanged := by
        simp [hrole, hstage, Role.isServer]
      rw [Machine.admitted, if_pos hadmitted]
      exact ⟨⟨checker, hrole⟩, .challenges rfl⟩
  registers := by
    rintro m pending said heard ⟨⟨checker, hrole⟩, hhosts⟩
    cases hhosts with
    | registers hstage =>
      refine ⟨rfl, fun id ↦ ?_⟩
      have hregistered : m.role.isServer = true ∧ m.stage = .authPending := by
        simp [hrole, hstage, Role.isServer]
      rw [Machine.registered, if_pos hregistered]
      exact ⟨⟨checker, hrole⟩, .accepts rfl rfl⟩
  establishes := by
    rintro m id pending said heard ⟨-, hhosts⟩
    cases hhosts with | establishes _ hsession => exact ⟨rfl, hsession⟩
  stays := by
    rintro m why pending said heard ⟨-, hhosts⟩
    cases hhosts
  hears := by
    rintro m said heard ⟨⟨checker, hrole⟩, hhosts⟩ msg
    have hserves := Machine.serves_onMessage hrole msg
    generalize m.onMessage msg = r at hserves
    cases hserves with
    | stops hstops => exact .inr hstops
    | greets hstage =>
      cases hhosts with
      | listens => exact .inl ⟨⟨checker, hrole⟩, .greets rfl⟩
      | awaits hother => simp [hstage] at hother
    | verifies hstage =>
      cases hhosts with
      | awaits => exact .inl ⟨⟨checker, hrole⟩, .registers hstage⟩
      | listens hother => simp [hstage] at hother

def Effect.consumed : Effect → Nat
  | .read count => count
  | _ => 0

namespace Conduct

/-- A handshake that goes well, with this said and that heard. -/
inductive Follows (P : Position) (c : Conduct) (said heard : List Message) : Prop where
  | acting {pending : List Action} (hphase : c.phase = .acting pending)
      (hposition : P c.machine pending said heard) : Follows P c said heard
  | sending {t : Frame.Transmission} {pending : List Action} (hphase : c.phase = .sending t pending)
      (hposition : P c.machine pending said heard) : Follows P c said heard
  | ended {outcome : Outcome} (hphase : c.phase = .ended (.ok outcome))
      (hposition : P c.machine [.establish outcome.session] said heard)
      (hbound : c.link.binding = some outcome.session) : Follows P c said heard

/-- What a move of a handshake can be that leaves it going well. -/
inductive Advances (P : Position) (c : Conduct) (o : Offer) (said heard : List Message)
    (c' : Conduct) : Effect → Prop where
  | goesOn {effect : Effect} (hfollows : c'.Follows P said heard)
      (hunsent : c.unsent = effect.written ++ c'.unsent)
      (houtbound : c'.link.outbound = c.link.outbound) (hreader : c'.link.reader = c.link.reader)
      (hinbound : c'.link.inbound = c.link.inbound) (hconsumed : effect.consumed = 0) :
      Advances P c o said heard c' effect
  | speaks {x : Letter} (hfollows : c'.Follows P (said ++ [x.envelope.message]) heard)
      (hhonest : ¬ x.envelope.message.Contradictory) (hbefore : c.unsent = [])
      (hafter : c'.unsent = Frame.wrap x.body) (hnumber : x.envelope.seq = c'.link.outbound.last)
      (hlt : c.link.outbound.last < c'.link.outbound.last)
      (hreader : c'.link.reader = c.link.reader) (hinbound : c'.link.inbound = c.link.inbound) :
      Advances P c o said heard c' .none
  | reads {b : Bytes} (hfollows : c'.Follows P said heard) (hunsent : c'.unsent = c.unsent)
      (houtbound : c'.link.outbound = c.link.outbound) (hread : o.read = .data b)
      (hreader : c'.link.reader = c.link.reader.feed b)
      (hinbound : c'.link.inbound = c.link.inbound) :
      Advances P c o said heard c' (.read b.length)
  | skips {body : Bytes} {reader : Frame.Reader} (hfollows : c'.Follows P said heard)
      (hunsent : c'.unsent = c.unsent) (houtbound : c'.link.outbound = c.link.outbound)
      (htake : c.link.reader.takeFrame = .ok (some (body, reader)))
      (hreader : c'.link.reader = reader) (hinbound : c'.link.inbound = c.link.inbound) :
      Advances P c o said heard c' .none
  | hears {body : Bytes} {reader : Frame.Reader} {e : Envelope}
      (hfollows : c'.Follows P said (heard ++ [e.message])) (hunsent : c'.unsent = c.unsent)
      (houtbound : c'.link.outbound = c.link.outbound)
      (htake : c.link.reader.takeFrame = .ok (some (body, reader)))
      (hdecode : Envelope.decode body = .ok e) (hreader : c'.link.reader = reader)
      (hinbound : c'.link.inbound = ⟨e.seq⟩) : Advances P c o said heard c' .none

variable {P : Position} {c c' : Conduct} {o : Offer} {effect : Effect} {said heard : List Message}

theorem Follows.position_of_acting {pending : List Action} (h : c.Follows P said heard)
    (hphase : c.phase = .acting pending) : P c.machine pending said heard := by
  cases h with
  | acting hother hposition =>
    obtain rfl := Phase.acting.inj (hother.symm.trans hphase)
    exact hposition
  | sending hother => nomatch hother.symm.trans hphase
  | ended hother => nomatch hother.symm.trans hphase

theorem Follows.position_of_sending {t : Frame.Transmission} {pending : List Action}
    (h : c.Follows P said heard) (hphase : c.phase = .sending t pending) :
    P c.machine pending said heard := by
  cases h with
  | sending hother hposition =>
    obtain ⟨rfl, rfl⟩ := Phase.sending.inj (hother.symm.trans hphase)
    exact hposition
  | acting hother => nomatch hother.symm.trans hphase
  | ended hother => nomatch hother.symm.trans hphase

/-- A handshake that has succeeded has come to the end of its course. -/
theorem Follows.of_result? {outcome : Outcome} (h : c.Follows P said heard)
    (hresult : c.result? = some (.ok outcome)) :
    P c.machine [.establish outcome.session] said heard ∧
      c.link.binding = some outcome.session := by
  unfold result? at hresult
  cases h with
  | acting hphase | sending hphase => simp [hphase] at hresult
  | ended hphase hposition hbound =>
    simp only [hphase, Option.some.injEq, Except.ok.injEq] at hresult
    exact hresult ▸ ⟨hposition, hbound⟩

theorem Follows.not_parting (h : c.Follows P said heard) :
    (∀ t until_ why, c.phase ≠ .farewell t until_ why) ∧ ∀ why, c.phase ≠ .shutting why := by
  cases h <;> simp_all

theorem unsent_of_acting {pending : List Action} (hphase : c.phase = .acting pending) :
    c.unsent = [] := by rw [unsent, hphase]

theorem unsent_of_sending {t : Frame.Transmission} {pending : List Action}
    (hphase : c.phase = .sending t pending) : c.unsent = t.rest := by rw [unsent, hphase]

private theorem advances_of_sends {m : Message} {pending : List Action} (hP : P.Lawful)
    (hc : c.Follows P said heard) (hphase : c.phase = .acting (.send m :: pending))
    (h : c.Sends m pending c') : c'.Doomed ∨ c.Advances P o said heard c' .none := by
  have hposition := hc.position_of_acting hphase
  obtain ⟨hhonest, hrest⟩ := hP.speaks hposition
  cases h with
  | @begins seq body t hseq hbody ht =>
    have hafter : ({ c with
        link := { c.link with outbound := ⟨seq⟩ }, phase := .sending t pending } : Conduct).unsent
          = Frame.wrap body := ht
    exact .inr (.speaks (x := ⟨_, body, hbody⟩) (.sending rfl hrest) hhonest
      (unsent_of_acting hphase) hafter rfl hseq rfl rfl)
  | refuses =>
    refine .inl (doomed_sendFailed _ fun hterminal ↦ ?_)
    nomatch (hP.alive hposition).symm.trans hterminal

/-- Nothing is left to be done behind a question to the registry, so that a bad answer ends it. -/
theorem doomed_of_asked {a : Action} {pending : List Action} (hP : P.Lawful)
    (hc : c.Follows P said heard) (hphase : c.phase = .acting (a :: pending))
    (ha : a = .reserve ∨ a = .register) (why : Failure) :
    (c.react pending (c.machine.fail why)).Doomed := by
  have hposition := hc.position_of_acting hphase
  have hpending : pending = [] := by
    rcases ha with rfl | rfl
    · exact (hP.reserves hposition).1
    · exact (hP.registers hposition).1
  rw [hpending]
  exact doomed_of_stops (Machine.stops_fail _ why) (List.forall_mem_nil _)

private theorem advances_of_placed {pending : List Action} (hP : P.Lawful)
    (hc : c.Follows P said heard) (hphase : c.phase = .acting (.reserve :: pending))
    (nonce : Nonce) :
    c.Advances P o said heard (c.react pending (c.machine.admitted nonce)) .reserved := by
  obtain ⟨rfl, hposition⟩ := hP.reserves (hc.position_of_acting hphase)
  exact .goesOn (.acting rfl (hposition nonce)) (unsent_of_acting hphase) rfl rfl rfl rfl

private theorem advances_of_registered {pending : List Action} (hP : P.Lawful)
    (hc : c.Follows P said heard) (hphase : c.phase = .acting (.register :: pending))
    (id : SessionId) (peer : Identity) (version : Version) :
    c.Advances P o said heard (c.react pending (c.machine.registered id))
      (.registered peer version) := by
  obtain ⟨rfl, hposition⟩ := hP.registers (hc.position_of_acting hphase)
  exact .goesOn (.acting rfl (hposition id)) (unsent_of_acting hphase) rfl rfl rfl rfl

/-- The session that the link is bound to is the one that the outcome names. -/
theorem advances_of_establishes {id : SessionId} {pending : List Action} (hP : P.Lawful)
    (hc : c.Follows P said heard) (hphase : c.phase = .acting (.establish id :: pending))
    {result : Except Failure Outcome} (hresult : result = match c.machine.outcome? with
      | some outcome => .ok outcome
      | none => .error noPeer) :
    ({ c with link := c.link.bind id, phase := .ended result } : Conduct).Doomed ∨
      c.Advances P o said heard { c with link := c.link.bind id, phase := .ended result }
        .none := by
  have hposition := hc.position_of_acting hphase
  obtain ⟨rfl, hsession⟩ := hP.establishes hposition
  subst hresult
  cases houtcome : c.machine.outcome? with
  | none => exact .inl ⟨_, rfl⟩
  | some outcome =>
    have hid := hsession.symm.trans (Machine.session_of_outcome? houtcome)
    obtain rfl := Option.some.inj hid
    exact .inr (.goesOn (.ended rfl hposition rfl) (unsent_of_acting hphase) rfl rfl rfl rfl)

private theorem advances_of_reads {count : Nat} {link : Link} (hc : c.Follows P said heard)
    (hphase : c.phase = .acting []) (hreceive : c.link.receive o.read = (.read count, link)) :
    c.Advances P o said heard { c with link } (.read count) := by
  have hreceives := Link.receives_of_receive hreceive
  cases hreceives with
  | read _ hread =>
    exact .reads (.acting hphase (hc.position_of_acting hphase)) rfl rfl hread rfl rfl

private theorem advances_of_skips {link : Link} (hc : c.Follows P said heard)
    (hphase : c.phase = .acting []) (hreceive : c.link.receive o.read = (.frame none, link)) :
    c.Advances P o said heard { c with link } .none := by
  have hreceives := Link.receives_of_receive hreceive
  have hposition := hc.position_of_acting hphase
  cases hreceives with
  | unknown htake | dropped htake => exact .skips (.acting hphase hposition) rfl rfl htake rfl rfl

/-- A message that is heard is the next one of the course, or the machine stops over it. -/
theorem advances_of_hears {m : Message} {link : Link} (hP : P.Lawful)
    (hc : c.Follows P said heard) (hphase : c.phase = .acting [])
    (hreceive : c.link.receive o.read = (.frame (some m), link)) :
    (react { c with link } [] (c.machine.onMessage m)).Doomed ∨
      c.Advances P o said heard (react { c with link } [] (c.machine.onMessage m)) .none := by
  have hreceives := Link.receives_of_receive hreceive
  cases hreceives with
  | passed htake hdecode =>
    rcases hP.hears (hc.position_of_acting hphase) _ with hposition | hstops
    · exact .inr (.hears (.acting rfl hposition) (unsent_of_acting hphase).symm rfl htake hdecode
        rfl rfl)
    · exact .inl (doomed_of_stops hstops (List.forall_mem_nil _))

/-- **A handshake goes on along its course or gives it up.** -/
theorem advances_of_does (hP : P.Lawful) (hc : c.Follows P said heard) (h : c.Does o c' effect) :
    c'.Doomed ∨ c.Advances P o said heard c' effect := by
  cases h with
  | tells hphase hsends => exact advances_of_sends hP hc hphase hsends
  | placed hphase => exact .inr (advances_of_placed hP hc hphase o.nonce)
  | refused hphase => exact .inl (doomed_of_asked hP hc hphase (.inl rfl) _)
  | registered hphase => exact .inr (advances_of_registered hP hc hphase _ _ _)
  | rejected hphase => exact .inl (doomed_of_asked hP hc hphase (.inr rfl) _)
  | unasked hphase ha => exact .inl (doomed_of_asked hP hc hphase ha _)
  | establishes hphase hresult => exact advances_of_establishes hP hc hphase hresult
  | closes hphase => exact (hP.stays (hc.position_of_acting hphase)).elim
  | reads hphase hreceive => exact .inr (advances_of_reads hc hphase hreceive)
  | skips hphase hreceive => exact .inr (advances_of_skips hc hphase hreceive)
  | hears hphase hreceive => exact advances_of_hears hP hc hphase hreceive
  | deafened => exact .inl (doomed_of_stops (Machine.stops_fail _ _) (List.forall_mem_nil _))
  | writes hphase hwrote =>
    have hunsent := Frame.Transmission.rest_of_wrote hwrote
    exact .inr (.goesOn (.sending rfl (hc.position_of_sending hphase))
      ((unsent_of_sending hphase).trans hunsent) rfl rfl rfl rfl)
  | completes hphase hfinished =>
    have hunsent := Frame.Transmission.rest_of_finished hfinished
    exact .inr (.goesOn (.acting rfl (hc.position_of_sending hphase))
      ((unsent_of_sending hphase).trans hunsent) rfl rfl rfl rfl)
  | breaks hphase =>
    have halive := hP.alive (hc.position_of_sending hphase)
    exact .inl (doomed_sendFailed _ fun hterminal ↦
      absurd (halive.symm.trans hterminal) Bool.false_ne_true)
  | expires _ _ hexpires => exact .inl (doomed_of_expires hexpires)
  | bids hphase | parted hphase | abandons hphase => exact absurd hphase (hc.not_parting.1 _ _ _)
  | shuts hphase => exact absurd hphase (hc.not_parting.2 _)

end Conduct

end DeskLink.Handshake
