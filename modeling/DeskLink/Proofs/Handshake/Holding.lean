import DeskLink.Proofs.Handshake.Moves
import DeskLink.Proofs.Handshake.Reaction

/-!
# What a handshake holds at the registry

A server's handshake first holds nothing, then a place, then a session. It asks for a place once,
after the greeting, and for a session once, after the right answer; what it is given it keeps until
it is over. Whether it may ask is not written down anywhere. It follows from the stage of its
machine and from the actions that are still to be carried out, which `Machine.Owes` lists.

A handshake that succeeds holds the session it reports. One that fails may hold anything: giving it
back is left to whoever conducts it.
-/

namespace DeskLink.Handshake

/-- What a handshake holds at the registry. -/
inductive Holding where
  | nothing
  | place
  | session (id : SessionId)

/-- Whether a move made use of the registry. -/
def Effect.asks : Effect → Bool
  | .reserved | .registered .. => true
  | _ => false

/-! ## What is still to be done -/

namespace Machine

/-- What the owner of a server's machine still has to do, and what is held meanwhile. -/
inductive Owes (m : Machine) : Holding → List Action → Prop where
  | listens (hstage : m.stage = .connected) : Owes m .nothing []
  | greets (hstage : m.stage = .helloExchanged) :
      Owes m .nothing [.send (.hello m.own), .reserve]
  | asks (hstage : m.stage = .helloExchanged) : Owes m .nothing [.reserve]
  | challenges {nonce : Nonce} (hstage : m.stage = .authPending) :
      Owes m .place [.send (.auth (.challenge nonce))]
  | awaits (hstage : m.stage = .authPending) : Owes m .place []
  | registers (hstage : m.stage = .authPending) : Owes m .place [.register]
  | accepts {id : SessionId} (hstage : m.stage = .established) (hsession : m.session = some id) :
      Owes m (.session id) [.send (.authResult ⟨true, some id⟩), .establish id]
  | establishes {id : SessionId} (hstage : m.stage = .established)
      (hsession : m.session = some id) : Owes m (.session id) [.establish id]
  /-- The machine is over, and nothing more is asked for. -/
  | parts {holding : Holding} {pending : List Action} (hterminal : m.stage.terminal = true)
      (hparting : ∀ a ∈ pending, a.Parting m.own) : Owes m holding pending

variable {m : Machine} {holding : Holding} {pending : List Action}

theorem owes_of_stops {r : Reaction} (h : m.Stops r)
    (hpending : ∀ a ∈ pending, a.Parting m.own) : r.2.Owes holding (pending ++ r.1) := by
  refine .parts h.terminal fun a ha ↦ ?_
  rw [h.own_eq]
  rcases List.mem_append.mp ha with ha | ha
  · exact hpending a ha
  · exact h.parting a ha

theorem Owes.tail {said : Message} (h : m.Owes holding (.send said :: pending)) :
    m.Owes holding pending := by
  cases h with
  | greets hstage => exact .asks hstage
  | challenges hstage => exact .awaits hstage
  | accepts hstage hsession => exact .establishes hstage hsession
  | parts hterminal hparting =>
    exact .parts hterminal fun a ha ↦ hparting a (List.mem_cons_of_mem _ ha)

theorem Owes.of_reserve (h : m.Owes holding (.reserve :: pending)) :
    m.stage = .helloExchanged ∧ holding = .nothing ∧ pending = [] := by
  cases h with
  | asks hstage => exact ⟨hstage, rfl, rfl⟩
  | parts _ hparting => exact (hparting _ List.mem_cons_self).elim

theorem Owes.of_register (h : m.Owes holding (.register :: pending)) :
    m.stage = .authPending ∧ holding = .place ∧ pending = [] := by
  cases h with
  | registers hstage => exact ⟨hstage, rfl, rfl⟩
  | parts _ hparting => exact (hparting _ List.mem_cons_self).elim

theorem Owes.of_establish {id : SessionId} (h : m.Owes holding (.establish id :: pending)) :
    holding = .session id ∧ m.session = some id := by
  cases h with
  | establishes _ hsession => exact ⟨rfl, hsession⟩
  | parts _ hparting => exact (hparting _ List.mem_cons_self).elim

/-- A challenge goes out when a place is held. -/
theorem Owes.of_challenge {nonce : Nonce}
    (h : m.Owes holding (.send (.auth (.challenge nonce)) :: pending)) : holding = .place := by
  cases h with
  | challenges => rfl
  | parts _ hparting => exact (hparting _ List.mem_cons_self).elim

theorem session_of_outcome? {outcome : Outcome} (h : m.outcome? = some outcome) :
    m.session = some outcome.session := by
  unfold outcome? at h
  obtain ⟨id, hid, h⟩ := Option.bind_eq_some_iff.mp h
  obtain ⟨peer, -, h⟩ := Option.bind_eq_some_iff.mp h
  obtain ⟨version, -, h⟩ := Option.bind_eq_some_iff.mp h
  obtain rfl := Option.some.inj h
  exact hid

/-- A message that a server hears is answered out of what it holds. -/
theorem owes_onMessage {checker : Checker} (hrole : m.role = .server checker)
    (h : m.Owes holding []) (msg : Message) : (m.onMessage msg).2.Owes holding (m.onMessage msg).1
      ∧ (m.onMessage msg).2.role = m.role := by
  have hserves := serves_onMessage hrole msg
  generalize m.onMessage msg = r at hserves
  cases hserves with
  | stops hstops =>
    have hgone : r.2.Owes holding ([] ++ r.1) := owes_of_stops hstops (by simp)
    exact ⟨hgone, hstops.role_eq⟩
  | greets hstage _ =>
    cases h with
    | listens => exact ⟨.greets rfl, rfl⟩
    | awaits hpending => simp [hstage] at hpending
    | parts hterminal => exact absurd hstage (Stage.ne_connected_of_terminal hterminal)
  | verifies hstage _ _ _ =>
    cases h with
    | listens hconnected => simp [hstage] at hconnected
    | awaits => exact ⟨.registers hstage, rfl⟩
    | parts hterminal => simp [hstage, Stage.terminal] at hterminal

end Machine

/-! ## A handshake under way -/

namespace Conduct

/-- A server's handshake that holds this. -/
structure Stands (c : Conduct) (holding : Holding) : Prop where
  hosting : c.hosting = true
  isServer : ∃ checker, c.machine.role = .server checker
  phase : match c.phase with
    | .acting pending | .sending _ pending => c.machine.Owes holding pending
    | .ended (.ok outcome) => holding = .session outcome.session
    | _ => True

/-- The challenge that is sent next. -/
def challenge? (c : Conduct) : Option Nonce :=
  match c.phase with
  | .acting (.send (.auth (.challenge nonce)) :: _) => some nonce
  | _ => none

/-- What a move does to what is held, given what the registry would answer. -/
inductive Deals (o : Offer) : Holding → Effect → Holding → Prop where
  | idles {holding : Holding} {effect : Effect} (hasks : effect.asks = false) :
      Deals o holding effect holding
  | refused {holding : Holding} {why : Failure} (hreserve : o.reserve = .error why) :
      Deals o holding .reserved holding
  | rejected {holding : Holding} {peer : Identity} {version : Version} {why : Failure}
      (hregister : o.register peer version = .error why) :
      Deals o holding (.registered peer version) holding
  /-- A place is given. -/
  | placed (hreserve : o.reserve = .ok ()) : Deals o .nothing .reserved .place
  /-- The place becomes a session. -/
  | registered {peer : Identity} {version : Version} {id : SessionId}
      (hregister : o.register peer version = .ok id) :
      Deals o .place (.registered peer version) (.session id)

variable {c c' : Conduct} {holding : Holding} {o : Offer} {effect : Effect}

theorem stands_start (checker : Checker) (own : Hello) (link : Link) (budget : Duration)
    (now : Instant) :
    (start (.fresh (.server checker) own) link true budget now).Stands .nothing :=
  ⟨rfl, ⟨checker, rfl⟩, .listens rfl⟩

theorem Stands.stops (hc : c.Stands holding) {pending : List Action} {r : Machine.Reaction}
    (hr : c.machine.Stops r) (hpending : ∀ a ∈ pending, a.Parting c.machine.own) :
    (c.react pending r).Stands holding where
  hosting := hc.hosting
  isServer := hr.role_eq ▸ hc.isServer
  phase := Machine.owes_of_stops hr hpending

theorem Stands.sendFailed (hc : c.Stands holding) {pending : List Action}
    (hpending : c.machine.Owes holding pending) (why : Failure) :
    (c.sendFailed pending why).Stands holding := by
  unfold Conduct.sendFailed
  split
  · exact ⟨hc.hosting, hc.isServer, hpending⟩
  · exact hc.stops (Machine.stops_abort _ why) (by simp)

/-- What is still to be done while a handshake carries out its actions. -/
theorem Stands.owes_of_acting (hc : c.Stands holding) {pending : List Action}
    (hphase : c.phase = .acting pending) : c.machine.Owes holding pending := by
  have howes := hc.phase
  rwa [hphase] at howes

theorem Stands.owes_of_sending (hc : c.Stands holding) {t : Frame.Transmission}
    {pending : List Action} (hphase : c.phase = .sending t pending) :
    c.machine.Owes holding pending := by
  have howes := hc.phase
  rwa [hphase] at howes

theorem Stands.of_challenge? (hc : c.Stands holding) {nonce : Nonce}
    (hchallenge : c.challenge? = some nonce) : holding = .place := by
  unfold challenge? at hchallenge
  split at hchallenge
  · exact (hc.owes_of_acting ‹_›).of_challenge
  · cases hchallenge

theorem Stands.of_result? (hc : c.Stands holding) {outcome : Outcome}
    (hresult : c.result? = some (.ok outcome)) : holding = .session outcome.session := by
  have hphase := hc.phase
  unfold result? at hresult
  split at hresult
  · rename_i hended
    rwa [hended, Option.some.inj hresult] at hphase
  · cases hresult

theorem Stands.sends (hc : c.Stands holding) {said : Message} {pending : List Action}
    (hphase : c.phase = .acting (.send said :: pending)) (hsends : c.Sends said pending c') :
    c'.Stands holding := by
  have hrest := (hc.owes_of_acting hphase).tail
  cases hsends with
  | begins => exact ⟨hc.hosting, hc.isServer, hrest⟩
  | @refuses why outbound =>
    have hlink : Stands { c with link := { c.link with outbound } } holding :=
      ⟨hc.hosting, hc.isServer, hc.phase⟩
    exact hlink.sendFailed hrest why

theorem Stands.expires (hc : c.Stands holding) {now : Instant} (hexpires : c.Expires now c') :
    c'.Stands holding := by
  have hrole := (Machine.stops_fail c.machine (.timeout c.budget.millis)).role_eq
  cases hexpires with
  | begins | silent => exact ⟨hc.hosting, hrole ▸ hc.isServer, trivial⟩

/-- **A handshake asks for nothing twice, and loses nothing.** Every move leaves it with what it
held, or with the place or the session that the registry has just given. -/
theorem Stands.deals (hc : c.Stands holding) (hdoes : c.Does o c' effect) :
    ∃ holding', c'.Stands holding' ∧ Deals o holding effect holding' := by
  cases hdoes with
  | tells hphase hsends => exact ⟨holding, hc.sends hphase hsends, .idles rfl⟩
  | placed hphase _ hreserve =>
    obtain ⟨hstage, rfl, rfl⟩ := (hc.owes_of_acting hphase).of_reserve
    obtain ⟨checker, hrole⟩ := hc.isServer
    refine ⟨.place, ⟨hc.hosting, ⟨checker, ?_⟩, ?_⟩, .placed hreserve⟩
    · simp [react, Machine.admitted, hrole, hstage, Role.isServer]
    · simpa [react, Machine.admitted, hrole, hstage, Role.isServer] using .challenges rfl
  | refused hphase _ hreserve =>
    obtain ⟨-, -, rfl⟩ := (hc.owes_of_acting hphase).of_reserve
    exact ⟨holding, hc.stops (Machine.stops_fail _ _) (by simp), .refused hreserve⟩
  | @registered _ _ _ id hphase _ _ _ hregister =>
    obtain ⟨hstage, rfl, rfl⟩ := (hc.owes_of_acting hphase).of_register
    obtain ⟨checker, hrole⟩ := hc.isServer
    refine ⟨.session id, ⟨hc.hosting, ⟨checker, ?_⟩, ?_⟩, .registered hregister⟩
    · simp [react, Machine.registered, hrole, hstage, Role.isServer]
    · simpa [react, Machine.registered, hrole, hstage, Role.isServer] using .accepts rfl rfl
  | rejected hphase _ _ _ hregister =>
    obtain ⟨-, -, rfl⟩ := (hc.owes_of_acting hphase).of_register
    exact ⟨holding, hc.stops (Machine.stops_fail _ _) (by simp), .rejected hregister⟩
  | unasked hphase ha =>
    have howes := hc.owes_of_acting hphase
    rcases ha with rfl | rfl
    · obtain ⟨-, -, rfl⟩ := howes.of_reserve
      exact ⟨holding, hc.stops (Machine.stops_fail _ _) (by simp), .idles rfl⟩
    · obtain ⟨-, -, rfl⟩ := howes.of_register
      exact ⟨holding, hc.stops (Machine.stops_fail _ _) (by simp), .idles rfl⟩
  | establishes hphase hresult =>
    obtain ⟨rfl, hsession⟩ := (hc.owes_of_acting hphase).of_establish
    refine ⟨_, ⟨hc.hosting, hc.isServer, ?_⟩, .idles rfl⟩
    subst hresult
    -- The outcome is made up of what the machine knows, the session included.
    cases houtcome : c.machine.outcome? with
    | none => trivial
    | some outcome =>
      have hid := hsession.symm.trans (Machine.session_of_outcome? houtcome)
      exact congrArg Holding.session (Option.some.inj hid)
  | closes | parted | abandons | shuts | bids =>
    exact ⟨holding, ⟨hc.hosting, hc.isServer, trivial⟩, .idles rfl⟩
  | reads hphase | skips hphase =>
    exact ⟨holding, ⟨hc.hosting, hc.isServer, hc.phase⟩, .idles rfl⟩
  | @hears said _ hphase _ =>
    obtain ⟨checker, hrole⟩ := hc.isServer
    obtain ⟨howes, hrole'⟩ :=
      Machine.owes_onMessage hrole (hc.owes_of_acting hphase) said
    exact ⟨holding, ⟨hc.hosting, ⟨checker, hrole'.trans hrole⟩, howes⟩, .idles rfl⟩
  | @deafened why _ hphase _ =>
    have hstops := Machine.stops_fail c.machine why
    exact ⟨holding, ⟨hc.hosting, hstops.role_eq ▸ hc.isServer,
      Machine.owes_of_stops hstops (by simp)⟩, .idles rfl⟩
  | writes hphase _ =>
    exact ⟨holding, ⟨hc.hosting, hc.isServer, hc.owes_of_sending hphase⟩, .idles rfl⟩
  | completes hphase _ =>
    exact ⟨holding, ⟨hc.hosting, hc.isServer, hc.owes_of_sending hphase⟩, .idles rfl⟩
  | breaks hphase _ => exact ⟨holding, hc.sendFailed (hc.owes_of_sending hphase) _, .idles rfl⟩
  | expires _ _ hexpires => exact ⟨holding, hc.expires hexpires, .idles rfl⟩

end Conduct

end DeskLink.Handshake
