import DeskLink.Client.Config
import DeskLink.Proofs.Envelope.Size
import DeskLink.Proofs.Handshake.Wire
import DeskLink.Proofs.Session.Candor
import DeskLink.Server.Config

/-!
# Which nodes can complete a handshake

The least frame limit is meant to leave room for every message of a handshake, and for the
challenge, the answer and the verdict it does. The hello carries the node's name, and nothing bounds
that: a node whose hello does not fit into a frame passes the check of its configuration, and then
no handshake of it ever succeeds.

What a node says in a handshake that goes well is its hello or is short (`Modest`). A node whose
hello cannot be sent stops where it would say it: before that it has agreed on nothing, and after
that it only takes its leave (`Mute`).
-/

namespace DeskLink

/-! ## Messages and their limits -/

/-- The hello can be written, and its envelope is within the limit. -/
def Hello.Fits (own : Hello) (limit : Nat) : Prop :=
  (Utf8.encode own.identity.name).length < 65536 ∧
    31 + (Utf8.encode own.identity.name).length ≤ limit

instance (own : Hello) (limit : Nat) : Decidable (own.Fits limit) :=
  inferInstanceAs (Decidable (_ ∧ _))

/-- A challenge, an answer as long as a code, or a verdict. -/
def Message.Slight : Message → Prop
  | .auth (.challenge _) | .authResult _ => True
  | .auth (.response credential) => credential.length = 32
  | _ => False

namespace Link

variable {l : Link}

private theorem exists_frameOf_hello (own : Hello) (seq : UInt32) (hbinding : l.binding = none) :
    (∃ t, l.frameOf seq (.hello own) = .ok t) ↔ own.Fits l.limit := by
  rw [exists_frameOf, hbinding, Message.Oversized, Message.size, Hello.Fits, Nat.not_lt,
    Nat.lt_succ_iff, ← Nat.add_assoc]
  rfl

private theorem exists_frameOf_of_slight {m : Message} (h : m.Slight) (seq : UInt32)
    (hbinding : l.binding = none) (hlimit : Tuning.leastFrame ≤ l.limit) :
    ∃ t, l.frameOf seq m = .ok t := by
  have hsize : m.size ≤ 35 := by
    cases m with
    | auth a =>
      cases a with
      | challenge => exact Nat.le_add_left 33 2
      | response credential => exact Nat.le_of_eq (congrArg (3 + ·) h)
    | authResult v =>
      rw [Message.size]
      split <;> decide
    | _ => exact h.elim
  refine exists_frameOf.mpr ⟨?_, ?_⟩
  · cases m with
    | auth a =>
      cases a with
      | challenge => exact not_false
      | response credential => exact Nat.not_lt.mpr (Nat.le_trans (Nat.le_of_eq h) (by decide))
    | authResult v => exact not_false
    | _ => exact h.elim
  · rw [Tuning.leastFrame] at hlimit
    rw [hbinding]
    exact Nat.le_trans (Nat.add_le_add_left hsize 7) (Nat.le_trans (by decide) hlimit)

end Link

private theorem Tuning.leastFrame_le_of_check {t : Tuning} (h : t.check = .ok ()) :
    leastFrame ≤ t.maxFrame := by
  by_contra hlt
  simp only [check, if_pos (Nat.lt_of_not_le hlt)] at h
  split at h
  · nomatch h
  · split at h
    · nomatch h
    · split at h <;> nomatch h

namespace Handshake

/-- A role, a hello and the tuning of a node whose configuration was found to be right. -/
inductive Configured : Role → Hello → Tuning → Prop where
  | server (c : Server.Config) {checker : Checker} {own : Hello} (hcheck : c.check = .ok ())
      (hname : own.identity.name = c.name) : Configured (.server checker) own c.tuning
  | client (c : Client.Config) {secret : Secret} {own : Hello} (hcheck : c.check = .ok ())
      (hname : own.identity.name = c.name) : Configured (.client secret.prover) own c.tuning

private theorem Configured.leastFrame_le {role : Role} {own : Hello} {t : Tuning}
    (h : Configured role own t) : Tuning.leastFrame ≤ t.maxFrame := by
  cases h with
  | server c hcheck | client c hcheck =>
    obtain ⟨_, htuning, -⟩ := bind_eq_ok.mp hcheck
    exact Tuning.leastFrame_le_of_check htuning

/-- A client of this role answers with a code of a secret. -/
def Role.Sharing : Role → Prop
  | .server _ => True
  | .client prover => ∃ secret : Secret, prover = secret.prover

theorem Configured.sharing {role : Role} {own : Hello} {t : Tuning} (h : Configured role own t) :
    role.Sharing := by
  cases h with
  | server => trivial
  | @client _ secret => exact ⟨secret, rfl⟩

/-! ## What a node says -/

namespace Machine

variable {m : Machine} {r : Reaction}

/-- An answer among these actions is as long as a code. -/
def Short (actions : List Action) : Prop :=
  ∀ credential, .send (.auth (.response credential)) ∈ actions → credential.length = 32

theorem Short.append {before after : List Action} (hbefore : Short before) (hafter : Short after) :
    Short (before ++ after) := fun credential h ↦
  (List.mem_append.mp h).elim (hbefore credential) (hafter credential)

theorem short_of_parting {own : Hello} {actions : List Action} (h : ∀ a ∈ actions, a.Parting own) :
    Short actions := fun _ hmem ↦ (h _ hmem).elim

private theorem short_onMessage (hsharing : m.role.Sharing) (msg : Message) :
    Short (m.onMessage msg).1 ∧ (m.onMessage msg).2.role = m.role := by
  cases hrole : m.role with
  | server checker =>
    have hserves := serves_onMessage hrole msg
    generalize m.onMessage msg = r at hserves ⊢
    cases hserves with
    | stops h => exact ⟨short_of_parting h.parting, h.role_eq.trans hrole⟩
    | greets | verifies => exact ⟨by simp [Short], hrole⟩
  | client prover =>
    have hattends := attends_onMessage hrole msg
    generalize m.onMessage msg = r at hattends ⊢
    cases hattends with
    | stops h => exact ⟨short_of_parting h.parting, h.role_eq.trans hrole⟩
    | greets | joins => exact ⟨by simp [Short], hrole⟩
    | answers =>
      rw [hrole] at hsharing
      obtain ⟨secret, rfl⟩ := hsharing
      exact ⟨by simp [Short, Secret.prover], hrole⟩

private theorem short_admitted (m : Machine) (nonce : Nonce) :
    Short (m.admitted nonce).1 ∧ (m.admitted nonce).2.role = m.role := by
  unfold admitted
  split <;> exact ⟨by simp [Short, idle], rfl⟩

private theorem short_registered (m : Machine) (id : SessionId) :
    Short (m.registered id).1 ∧ (m.registered id).2.role = m.role := by
  unfold registered
  split <;> exact ⟨by simp [Short, idle], rfl⟩

theorem Stops.short (h : m.Stops r) : Short r.1 ∧ r.2.role = m.role :=
  ⟨short_of_parting h.parting, h.role_eq⟩

end Machine

namespace Conduct

open Machine (Short)

variable {c c' : Conduct} {o : Offer} {effect : Effect} {limit : Nat}

/-- What is still to be said is short besides the hello and reports. -/
structure Modest (limit : Nat) (c : Conduct) : Prop where
  sharing : c.machine.role.Sharing
  short : Short c.pending
  limit_eq : c.link.limit = limit

namespace Modest

theorem react (hc : c.Modest limit) {pending : List Action} {r : Machine.Reaction}
    (hpending : Short pending) (hr : Short r.1 ∧ r.2.role = c.machine.role) :
    (c.react pending r).Modest limit :=
  ⟨by rw [Conduct.react, hr.2]; exact hc.sharing, hpending.append hr.1, hc.limit_eq⟩

theorem sendFailed (hc : c.Modest limit) {pending : List Action} (hpending : Short pending)
    (why : Failure) : (c.sendFailed pending why).Modest limit := by
  unfold Conduct.sendFailed
  split
  · exact ⟨hc.sharing, hpending, hc.limit_eq⟩
  · exact hc.react (by simp [Short]) (Machine.stops_abort _ why).short

theorem of_acting (hc : c.Modest limit) {a : Action} {pending : List Action}
    (hphase : c.phase = .acting (a :: pending)) : Short pending := fun credential h ↦
  hc.short credential (by simp [Conduct.pending, hphase, h])

theorem of_sending (hc : c.Modest limit) {t : Frame.Transmission} {pending : List Action}
    (hphase : c.phase = .sending t pending) : Short pending := fun credential h ↦
  hc.short credential (by simp [Conduct.pending, hphase, h])

theorem received (hc : c.Modest limit) {reply : ReadReply} {arrival : Link.Arrival} {link : Link}
    (h : c.link.receive reply = (arrival, link)) : Modest limit { c with link } :=
  ⟨hc.sharing, hc.short, (Link.limit_of_receive h).trans hc.limit_eq⟩

theorem does (hc : c.Modest limit) (h : c.Does o c' effect) : c'.Modest limit := by
  have hnone : Short [] := by simp [Short]
  have hfail (why : Failure) := (Machine.stops_fail c.machine why).short
  cases h with
  | tells hphase hsends =>
    cases hsends with
    | begins => exact ⟨hc.sharing, hc.of_acting hphase, hc.limit_eq⟩
    | @refuses why outbound =>
      have hlink : Modest limit { c with link := { c.link with outbound } } :=
        ⟨hc.sharing, hc.short, hc.limit_eq⟩
      exact hlink.sendFailed (hc.of_acting hphase) why
  | placed hphase => exact hc.react (hc.of_acting hphase) (Machine.short_admitted ..)
  | registered hphase => exact hc.react (hc.of_acting hphase) (Machine.short_registered ..)
  | refused hphase | rejected hphase | unasked hphase =>
    exact hc.react (hc.of_acting hphase) (hfail _)
  | establishes | closes | bids | parted | abandons => exact ⟨hc.sharing, hnone, hc.limit_eq⟩
  | reads _ hreceive | skips _ hreceive => exact hc.received hreceive
  | hears _ hreceive =>
    exact (hc.received hreceive).react hnone (Machine.short_onMessage hc.sharing _)
  | deafened _ hreceive => exact (hc.received hreceive).react hnone (hfail _)
  | writes hphase | completes hphase =>
    exact ⟨hc.sharing, hc.of_sending hphase, hc.limit_eq⟩
  | breaks hphase => exact hc.sendFailed (hc.of_sending hphase) _
  | expires _ _ hexpires =>
    cases hexpires <;> exact ⟨(hfail _).2 ▸ hc.sharing, hnone, hc.limit_eq⟩
  | shuts => exact ⟨hc.sharing, hnone, hc.limit_eq⟩

end Modest

/-! ## A hello that does not fit -/

/-- Nothing has been agreed on: the machine waits for a hello, or its own is about to be sent, or
there is nothing left to do but to take leave. -/
inductive Hushed (own : Hello) (m : Machine) : List Action → Prop where
  | waits (hstage : m.stage = .connected) (hserver : ∃ checker, m.role = .server checker) :
      Hushed own m []
  | greets {rest : List Action}
      (hrest : m.stage.terminal = true → ∀ a ∈ rest, a.Parting own) :
      Hushed own m (.send (.hello own) :: rest)
  | leaves {pending : List Action} (hterminal : m.stage.terminal = true)
      (hparting : ∀ a ∈ pending, a.Parting own) : Hushed own m pending

/-- A handshake of a node whose hello never goes out. -/
structure Mute (own : Hello) (c : Conduct) : Prop where
  own_eq : c.machine.own = own
  phase : match c.phase with
    | .acting pending => Hushed own c.machine pending
    | .sending _ pending => c.machine.stage.terminal = true ∧ ∀ a ∈ pending, a.Parting own
    | .farewell .. | .shutting _ => True
    | .ended result => ∀ outcome, result ≠ .ok outcome

private theorem sendFailed_of_step {m : Message} {pending : List Action}
    (hphase : c.phase = .acting (.send m :: pending))
    (hrefused : ∀ seq t, c.link.frameOf seq m ≠ .ok t) (h : c.step o = some (c', effect)) :
    ∃ why outbound, c' = sendFailed { c with link := { c.link with outbound } } pending why := by
  simp only [step, hphase, drive, act, Link.prepare] at h
  cases hnext : c.link.outbound.next? with
  | none =>
    simp only [hnext] at h
    exact ⟨_, c.link.outbound, (Prod.mk.inj (Option.some.inj h)).1.symm⟩
  | some next =>
    obtain ⟨seq, outbound⟩ := next
    cases hframe : c.link.frameOf seq m with
    | ok t => exact absurd hframe (hrefused seq t)
    | error why =>
      simp only [hnext, hframe, Except.map] at h
      exact ⟨why, outbound, (Prod.mk.inj (Option.some.inj h)).1.symm⟩

namespace Mute

variable {own : Hello}

theorem withLink (hc : c.Mute own) (link : Link) : Mute own { c with link } :=
  ⟨hc.own_eq, hc.phase⟩

theorem stops (hc : c.Mute own) {r : Machine.Reaction} (hr : c.machine.Stops r) :
    (c.react [] r).Mute own :=
  ⟨hr.own_eq.trans hc.own_eq, .leaves hr.terminal (hc.own_eq ▸ hr.parting)⟩

theorem sendFailed (hc : c.Mute own) {pending : List Action}
    (hpending : c.machine.stage.terminal = true → ∀ a ∈ pending, a.Parting own) (why : Failure) :
    (c.sendFailed pending why).Mute own := by
  unfold Conduct.sendFailed
  split
  · rename_i hterminal
    exact ⟨hc.own_eq, .leaves hterminal (hpending hterminal)⟩
  · exact hc.stops (Machine.stops_abort _ why)

theorem of_acting (hc : c.Mute own) {pending : List Action} (hphase : c.phase = .acting pending) :
    Hushed own c.machine pending := by
  have hmute := hc.phase
  rwa [hphase] at hmute

theorem of_sending (hc : c.Mute own) {t : Frame.Transmission} {pending : List Action}
    (hphase : c.phase = .sending t pending) :
    c.machine.stage.terminal = true ∧ ∀ a ∈ pending, a.Parting own := by
  have hmute := hc.phase
  rwa [hphase] at hmute

theorem parting_of_acting (hc : c.Mute own) {a : Action} {pending : List Action}
    (hphase : c.phase = .acting (a :: pending)) : a.Parting own := by
  cases hc.of_acting hphase with
  | greets => rfl
  | leaves _ hparting => exact hparting a List.mem_cons_self

theorem hears (hc : c.Mute own) (hphase : c.phase = .acting []) (link : Link) (msg : Message) :
    Mute own (Conduct.react { c with link } [] (c.machine.onMessage msg)) := by
  cases hc.of_acting hphase with
  | waits hstage hserver =>
    obtain ⟨checker, hrole⟩ := hserver
    have hserves := Machine.serves_onMessage hrole msg
    generalize c.machine.onMessage msg = r at hserves ⊢
    cases hserves with
    | stops h => exact (hc.withLink link).stops h
    | greets => exact ⟨hc.own_eq, hc.own_eq ▸ .greets nofun⟩
    | verifies hpending => nomatch hstage.symm.trans hpending
  | leaves hterminal =>
    rw [Machine.onMessage_of_terminal hterminal]
    exact ⟨hc.own_eq, .leaves hterminal (by simp)⟩

/-- Whatever happens, nothing comes of it as long as the link refuses the hello. -/
theorem moves (hc : c.Mute own)
    (hrefused : ¬ c.Silent → ∀ seq t, c.link.frameOf seq (.hello own) ≠ .ok t)
    (h : c.step o = some (c', effect)) : c'.Mute own := by
  cases does_step h with
  | @tells m pending _ hphase hsends =>
    cases hc.of_acting hphase with
    | greets hrest =>
      obtain ⟨why, outbound, rfl⟩ :=
        sendFailed_of_step hphase (hrefused (by simp [Silent, hphase])) h
      exact (hc.withLink { c.link with outbound }).sendFailed hrest why
    | leaves hterminal hparting =>
      have hrest : ∀ a ∈ pending, a.Parting own := fun a ha ↦
        hparting a (List.mem_cons_of_mem _ ha)
      cases hsends with
      | begins => exact ⟨hc.own_eq, hterminal, hrest⟩
      | refuses => exact (hc.withLink _).sendFailed (fun _ ↦ hrest) _
  | placed hphase | refused hphase | registered hphase | rejected hphase | establishes hphase =>
    exact (hc.parting_of_acting hphase).elim
  | unasked hphase ha =>
    have hparting := hc.parting_of_acting hphase
    rcases ha with rfl | rfl <;> exact hparting.elim
  | closes | bids | parted | abandons => exact ⟨hc.own_eq, trivial⟩
  | reads hphase | skips hphase => exact ⟨hc.own_eq, hc.phase⟩
  | hears hphase => exact hc.hears hphase _ _
  | deafened => exact (hc.withLink _).stops (Machine.stops_fail _ _)
  | writes hphase => exact ⟨hc.own_eq, hc.of_sending hphase⟩
  | completes hphase =>
    obtain ⟨hterminal, hparting⟩ := hc.of_sending hphase
    exact ⟨hc.own_eq, .leaves hterminal hparting⟩
  | breaks hphase => exact hc.sendFailed (fun _ ↦ (hc.of_sending hphase).2) _
  | expires _ _ hexpires =>
    have hown := (Machine.stops_fail c.machine (.timeout c.budget.millis)).own_eq
    cases hexpires <;> exact ⟨hown.trans hc.own_eq, trivial⟩
  | shuts => exact ⟨hc.own_eq, fun _ ↦ by simp⟩

theorem start (role : Role) (own : Hello) (link : Link) (hosting : Bool) (budget : Duration)
    (now : Instant) : (Conduct.start (.fresh role own) link hosting budget now).Mute own := by
  cases role with
  | client prover => exact ⟨rfl, .greets nofun⟩
  | server checker => exact ⟨rfl, .waits rfl ⟨checker, rfl⟩⟩

end Mute

/-! ## Fitting -/

private theorem run_of_step {P : Conduct → Prop}
    (hstep : ∀ {c o c' effect}, P c → c.step o = some (c', effect) → P c') (h : P c)
    (offers : List Offer) : P (c.run offers).2 := by
  induction offers generalizing c with
  | nil => exact h
  | cons o offers ih =>
    cases hmove : c.step o with
    | none =>
      rw [run_cons_of_none hmove]
      exact ih h
    | some moved =>
      obtain ⟨c', effect⟩ := moved
      rw [run_cons_of_step hmove]
      exact ih (hstep h hmove)

/-- A handshake of this node over a fresh link, at any moment. -/
structure Speaks (own : Hello) (link : Link) (budget : Duration) (deadline : Instant)
    (c : Conduct) : Prop where
  belongs : c.Belongs own link budget deadline
  modest : c.Modest link.limit
  mute : ¬ own.Fits link.limit → c.Mute own

theorem Speaks.frameOf_hello {own : Hello} {link : Link} {budget : Duration} {deadline : Instant}
    (h : c.Speaks own link budget deadline) (hbinding : link.binding = none) (hloud : ¬ c.Silent)
    (seq : UInt32) :
    (∃ frame, c.link.frameOf seq (.hello own) = .ok frame) ↔ own.Fits link.limit := by
  rw [Link.exists_frameOf_hello own seq ((h.belongs.binding_eq hloud).trans hbinding),
    h.modest.limit_eq]

theorem Speaks.moves {own : Hello} {link : Link} {budget : Duration} {deadline : Instant}
    (h : c.Speaks own link budget deadline) (hbinding : link.binding = none)
    (hstep : c.step o = some (c', effect)) : c'.Speaks own link budget deadline where
  belongs := h.belongs.does (does_step hstep)
  modest := h.modest.does (does_step hstep)
  mute hunfit := by
    refine (h.mute hunfit).moves (fun hloud seq frame hframe ↦ hunfit ?_) hstep
    exact (h.frameOf_hello hbinding hloud seq).mp ⟨frame, hframe⟩

private theorem speaks_start {role : Role} (hsharing : role.Sharing) (own : Hello) (link : Link)
    (hosting : Bool) (budget : Duration) (now : Instant) :
    (start (.fresh role own) link hosting budget now).Speaks own link budget (now + budget) where
  belongs := belongs_start (.fresh role own) link hosting budget now
  modest := by
    cases role with
    | client prover => exact ⟨hsharing, by simp [Short, Conduct.pending, start, Machine.start,
        Machine.fresh, Role.isServer], rfl⟩
    | server checker => exact ⟨hsharing, by simp [Short, Conduct.pending, start, Machine.start,
        Machine.fresh, Role.isServer, Machine.idle], rfl⟩
  mute _ := .start role own link hosting budget now

/-- **Only the name can be too long for a handshake.** Of all that a node with a checked
configuration is about to say in a handshake, every message but the hello and reports can be written
and fits into a frame. The hello does so exactly if the name has at most 65535 bytes, and with 31
more is within the limit. When it does not, no handshake of this node succeeds, whatever the other
side, the stream and the registry do. -/
theorem fitting {role : Role} {own : Hello} {t : Tuning} (h : Configured role own t)
    (hosting : Bool) (budget : Duration) (now : Instant) (offers : List Offer) :
    let link := Link.new own.version.major t.maxFrame
    let c := ((start (.fresh role own) link hosting budget now).run offers).2
    (∀ said pending, c.phase = .acting (.send said :: pending) → (∀ r, said ≠ .report r) →
      ∀ seq, (∃ frame, c.link.frameOf seq said = .ok frame) ↔
        (said = .hello own → own.Fits t.maxFrame)) ∧
    ∀ outcome, c.result? = some (.ok outcome) → own.Fits t.maxFrame := by
  intro link c
  have hspeaks : c.Speaks own link budget (now + budget) :=
    run_of_step (fun h hstep ↦ h.moves rfl hstep)
      (speaks_start h.sharing own link hosting budget now) offers
  refine ⟨fun said pending hphase hreport seq ↦ ?_, fun outcome hresult ↦ ?_⟩
  · have hloud : ¬ c.Silent := by simp [Silent, hphase]
    by_cases hhello : said = .hello own
    · rw [hhello, hspeaks.frameOf_hello rfl hloud]
      exact ⟨fun hfits _ ↦ hfits, fun hfits ↦ hfits rfl⟩
    · have hslight : said.Slight := by
        have hmem : Action.send said ∈ c.pending := by simp [Conduct.pending, hphase]
        have hopening := hspeaks.belongs.opening said hmem
        cases said with
        | hello other => exact absurd (congrArg Message.hello hopening) hhello
        | auth a =>
          cases a with
          | challenge => trivial
          | response credential => exact hspeaks.modest.short credential hmem
        | authResult => trivial
        | report r => exact absurd rfl (hreport r)
        | heartbeat | heartbeatAck | input | close => exact hopening.elim
      refine iff_of_true ?_ fun heq ↦ absurd heq hhello
      exact Link.exists_frameOf_of_slight hslight seq (hspeaks.belongs.binding_eq hloud)
        (hspeaks.modest.limit_eq ▸ h.leastFrame_le)
  · -- A node whose hello does not fit never gets beyond it.
    by_contra hunfit
    have hmute := (hspeaks.mute hunfit).phase
    cases hphase : c.phase with
    | ended result =>
      rw [hphase] at hmute
      rw [result?, hphase] at hresult
      exact hmute outcome (Option.some.inj hresult)
    | _ => simp [result?, hphase] at hresult

/-- A client with the least frame limit whose name takes 482 bytes. Its configuration is found to be
right, and it never completes a handshake. -/
theorem fitting_one_byte_more :
    let c : Client.Config :=
      { Client.Config.standard with
        name := String.ofList (List.replicate 482 'n')
        tuning := { Tuning.standard with maxFrame := 512 }
        secret := "s3cret!" }
    let own : Hello := ⟨c.version, ⟨⟨List.replicate 16 7, rfl⟩, c.name, 3⟩⟩
    let conduct := start (.fresh (.client (Secret.prover ⟨Utf8.encode c.secret⟩)) own)
      (.new own.version.major c.tuning.maxFrame) false c.tuning.handshake 0
    c.check = .ok () ∧ conduct.phase = .acting [.send (.hello own)] ∧
      (¬ ∃ frame, conduct.link.frameOf 1 (.hello own) = .ok frame) ∧
      ∀ offers outcome, (conduct.run offers).2.result? ≠ some (.ok outcome) := by
  intro c own conduct
  have hcheck : c.check = .ok () := by decide +kernel
  have hunfit : ¬ own.Fits c.tuning.maxFrame := by decide +kernel
  have hconfigured : Configured (.client (Secret.prover ⟨Utf8.encode c.secret⟩)) own c.tuning :=
    .client c hcheck rfl
  have hfitting := fitting hconfigured false c.tuning.handshake 0
  refine ⟨hcheck, rfl, fun hframe ↦ ?_, fun offers outcome hresult ↦ ?_⟩
  · exact hunfit (((hfitting []).1 (.hello own) [] rfl nofun 1).mp hframe rfl)
  · exact hunfit ((hfitting offers).2 outcome hresult)

end Conduct

end Handshake

end DeskLink
