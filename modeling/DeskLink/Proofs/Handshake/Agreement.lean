import DeskLink.Proofs.Handshake.Encounter

/-!
# Both sides agree

However a client and a server meet, a client that is established under a name was let in by this
server under that name, both know who the other one is and run at the same version, and the server
had checked the client's answer to the one challenge of this connection.

## The invariant

Neither machine sees the other, so the invariant goes through the messages: each message on its way
says something that is true of its sender and stays true (`TellsServer`, `TellsClient`). An answer
on its way to the server answers a challenge that the server has made, and a verdict that lets the
client in names the session that the server holds. Both are true for good, since the server's
challenges are only added to and its session is never given up.
-/

namespace DeskLink.Handshake

/-! ## What a machine that stops does not do -/

namespace Machine.Stops

variable {m : Machine} {r : Machine.Reaction}

private theorem filterMap_challenge? (h : m.Stops r) : r.1.filterMap Action.challenge? = [] := by
  refine List.filterMap_eq_nil_iff.mpr fun a ha ↦ ?_
  have hparting := h.parting a ha
  unfold Action.challenge?
  split
  · exact hparting.elim
  · rfl

theorem count_register (h : m.Stops r) : r.1.count .register = 0 :=
  List.count_eq_zero.mpr fun hmem ↦ h.parting _ hmem

theorem of_message {msg : Message} (h : m.Stops r) (hmsg : msg ∈ r.1.filterMap Action.message?) :
    (Action.send msg).Parting m.own := by
  obtain ⟨a, ha, hsend⟩ := List.mem_filterMap.mp hmsg
  have hparting := h.parting a ha
  cases a with
  | send msg' =>
    obtain rfl : msg' = msg := Option.some.inj hsend
    exact hparting
  | _ => nomatch hsend

end Machine.Stops

/-! ## The invariant -/

variable (prover : Prover) (checker : Checker) (own peer : Hello)

/-- What is true of a server with this hello that talks to a client with that one. -/
structure ServerSound (t : Tended) : Prop where
  role_eq : t.machine.role = .server checker
  own_eq : t.machine.own = own
  registrations_le : t.registrations ≤ 1
  /-- A registration is asked for only after the answer to the one challenge has been checked. -/
  verified : t.registrations = 1 → ∃ nonce, t.challenges = [nonce] ∧
    checker.verify nonce (prover.respond nonce peer.identity) peer.identity = true
  /-- Every answer is the answer to a question of its own. -/
  answered : t.asked.count .register + t.granted.length ≤ t.registrations
  unchallenged : t.machine.stage = .connected ∨ t.machine.stage = .helloExchanged →
    t.challenges = []
  open_nonce : ∀ nonce, t.machine.stage = .authPending → t.machine.nonce = some nonce →
    t.challenges = [nonce] ∧ t.registrations = 0
  introduced : t.machine.stage = .helloExchanged ∨ t.machine.stage = .authPending →
    t.machine.peer = some peer.identity ∧ t.machine.version = some (own.common peer)
  nameless : t.machine.stage = .connected ∨ t.machine.stage = .helloExchanged ∨
    t.machine.stage = .authPending → t.machine.session = none
  named : ∀ id, t.machine.session = some id → t.granted = [id] ∧ t.registrations = 1 ∧
    t.machine.peer = some peer.identity ∧ t.machine.version = some (own.common peer)

/-- What is true of a client with this hello that talks to a server with that one, while the server
holds this session. -/
structure ClientSound (session : Option SessionId) (m : Machine) : Prop where
  role_eq : m.role = .client prover
  own_eq : m.own = own
  introduced : m.stage = .helloExchanged ∨ m.stage = .authPending ∨ m.stage = .established →
    m.peer = some peer.identity ∧ own.version.major = peer.version.major
      ∧ m.version = some (own.common peer)
  established : m.stage = .established → ∃ id, m.session = some id ∧ session = some id

/-- What a message of this client is worth to a server that has made these challenges. -/
def TellsServer (challenges : List Nonce) : Message → Prop
  | .hello h => h = own
  | .auth (.response credential) =>
    ∃ nonce ∈ challenges, credential = prover.respond nonce own.identity
  | _ => True

/-- What a message of this server is worth, when it has made these challenges and holds this
session. -/
def TellsClient (challenges : List Nonce) (session : Option SessionId) : Message → Prop
  | .hello h => h = own
  | .auth (.challenge nonce) => nonce ∈ challenges
  | .authResult ⟨true, some id⟩ => session = some id
  | _ => True

/-- The invariant of an encounter of a client with this hello and a server with that one. -/
structure Encounter.Sound (e : Encounter) : Prop where
  client : ClientSound prover own peer e.server.machine.session e.client
  server : ServerSound prover checker peer own e.server
  toServer : ∀ m ∈ e.toServer, TellsServer prover own e.server.challenges m
  toClient : ∀ m ∈ e.toClient, TellsClient peer e.server.challenges e.server.machine.session m

/-! ## What the server keeps -/

namespace ServerSound

variable {prover checker own peer} {t : Tended}

theorem told (hs : ServerSound prover checker own peer t) (a : Action) :
    ServerSound prover checker own peer (t.told a) := by
  have hcount : (t.asked.erase a).count .register ≤ t.asked.count .register :=
    List.erase_sublist.count_le _
  exact { hs with answered := Nat.le_trans (Nat.add_le_add_right hcount _) hs.answered }

private theorem stage_of_named {id : SessionId} (hs : ServerSound prover checker own peer t)
    (hid : t.machine.session = some id) : t.machine.stage ≠ .connected := by
  intro hstage
  rw [hs.nameless (.inl hstage)] at hid
  nomatch hid

theorem of_stops {r : Machine.Reaction} (hs : ServerSound prover checker own peer t)
    (h : t.machine.Stops r) : ServerSound prover checker own peer (t.does r) := by
  have hne : ∀ s : Stage, s.terminal = false → r.2.stage ≠ s := by
    rintro s hs rfl
    exact absurd (h.terminal.symm.trans hs) (by simp)
  constructor
  · exact h.role_eq.trans hs.role_eq
  · exact h.own_eq.trans hs.own_eq
  · simpa [h.count_register] using hs.registrations_le
  · simpa [h.count_register, h.filterMap_challenge?] using hs.verified
  · simpa [h.count_register] using hs.answered
  · rintro (hstage | hstage)
    · exact absurd hstage (hne _ rfl)
    · exact absurd hstage (hne _ rfl)
  · exact fun _ hstage ↦ absurd hstage (hne _ rfl)
  · rintro (hstage | hstage)
    · exact absurd hstage (hne _ rfl)
    · exact absurd hstage (hne _ rfl)
  · rintro (hstage | hstage | hstage)
    · exact absurd hstage (hne _ rfl)
    · exact absurd hstage (hne _ rfl)
    · exact absurd hstage (hne _ rfl)
  · intro id hid
    have hid' : t.machine.session = some id := h.session_eq ▸ hid
    obtain ⟨hgranted, hregistrations, hpeer, hversion⟩ := hs.named id hid'
    refine ⟨hgranted, ?_, (h.peer_eq (hs.stage_of_named hid')).trans hpeer,
      h.version_eq.trans hversion⟩
    simpa [h.count_register] using hregistrations

private theorem registrations_eq_zero (hs : ServerSound prover checker own peer t)
    (h : t.challenges = []) : t.registrations = 0 := by
  have hne : t.registrations ≠ 1 := by
    intro hone
    obtain ⟨nonce, hnonce, -⟩ := hs.verified hone
    exact absurd (h.symm.trans hnonce) (by simp)
  have hle := hs.registrations_le
  omega

private theorem of_greets {v : Version} (hs : ServerSound prover checker own peer t)
    (hstage : t.machine.stage = .connected)
    (hv : t.machine.own.version.negotiate peer.version = some v) :
    ServerSound prover checker own peer (t.does ([.send (.hello t.machine.own), .reserve],
      { t.machine with
        peer := some peer.identity, version := some v, stage := .helloExchanged })) := by
  rw [hs.own_eq] at hv
  obtain ⟨-, rfl⟩ := Version.negotiate_eq_some_iff.mp hv
  have hchallenges := hs.unchallenged (.inl hstage)
  have hsession := hs.nameless (.inl hstage)
  constructor
  · exact hs.role_eq
  · exact hs.own_eq
  · simpa using hs.registrations_le
  · simpa [List.filterMap_cons, Action.challenge?] using hs.verified
  · simpa using hs.answered
  · simpa [List.filterMap_cons, Action.challenge?] using hchallenges
  · intro nonce hpending
    nomatch hpending
  · exact fun _ ↦ ⟨rfl, rfl⟩
  · exact fun _ ↦ hsession
  · intro id hid
    exact absurd (hsession.symm.trans hid) (by simp)

private theorem of_verifies {credential : Bytes} {nonce : Nonce} {i : Identity}
    (hs : ServerSound prover checker own peer t)
    (htells : TellsServer prover peer t.challenges (.auth (.response credential)))
    (hstage : t.machine.stage = .authPending) (hnonce : t.machine.nonce = some nonce)
    (hpeer : t.machine.peer = some i) (hverify : checker.verify nonce credential i = true) :
    ServerSound prover checker own peer
      (t.does ([.register], { t.machine with nonce := none })) := by
  obtain ⟨hchallenges, hregistrations⟩ := hs.open_nonce nonce hstage hnonce
  obtain ⟨hpeer', hversion⟩ := hs.introduced (.inr hstage)
  obtain rfl : peer.identity = i := Option.some.inj (hpeer'.symm.trans hpeer)
  -- The answer may answer any challenge the server has made, but it has made only one.
  obtain ⟨nonce', hmem, rfl⟩ := htells
  obtain rfl : nonce' = nonce := by simpa [hchallenges] using hmem
  have hanswered := hs.answered
  constructor
  · exact hs.role_eq
  · exact hs.own_eq
  · simp [hregistrations]
  · intro _
    refine ⟨nonce', ?_, hverify⟩
    simpa [List.filterMap_cons, Action.challenge?] using hchallenges
  · simp
    omega
  · rintro (h | h) <;> exact absurd (hstage.symm.trans h) Stage.noConfusion
  · intro _ _ hopen
    nomatch hopen
  · exact fun _ ↦ ⟨hpeer', hversion⟩
  · exact fun _ ↦ hs.nameless (.inr (.inr hstage))
  · intro id hid
    exact absurd ((hs.nameless (.inr (.inr hstage))).symm.trans hid) (by simp)

theorem of_serves {r : Machine.Reaction} {msg : Message}
    (hs : ServerSound prover checker own peer t) (htells : TellsServer prover peer t.challenges msg)
    (hserves : t.machine.Serves checker msg r) :
    ServerSound prover checker own peer (t.does r) := by
  cases hserves with
  | stops h => exact hs.of_stops h
  | greets hstage hv =>
    obtain rfl := htells
    exact hs.of_greets hstage hv
  | verifies hstage hnonce hpeer hverify => exact hs.of_verifies htells hstage hnonce hpeer hverify

theorem of_idle (hs : ServerSound prover checker own peer t) :
    ServerSound prover checker own peer (t.does t.machine.idle) := by
  simpa [Tended.does, Machine.idle] using hs

theorem of_admitted (hs : ServerSound prover checker own peer t) (nonce : Nonce) :
    ServerSound prover checker own peer (t.does (t.machine.admitted nonce)) := by
  unfold Machine.admitted
  split
  · rename_i h
    obtain ⟨hpeer, hversion⟩ := hs.introduced (.inl h.2)
    have hchallenges := hs.unchallenged (.inr h.2)
    have hsession := hs.nameless (.inr (.inl h.2))
    have hregistrations := hs.registrations_eq_zero hchallenges
    constructor
    · exact hs.role_eq
    · exact hs.own_eq
    · simp [hregistrations]
    · simp [hregistrations]
    · simpa using hs.answered
    · rintro (hstage | hstage) <;> exact Stage.noConfusion hstage
    · rintro nonce' - hopen
      obtain rfl : nonce = nonce' := Option.some.inj hopen
      simp [Action.challenge?, hchallenges, hregistrations]
    · exact fun _ ↦ ⟨hpeer, hversion⟩
    · exact fun _ ↦ hsession
    · intro id hid
      exact absurd (hsession.symm.trans hid) (by simp)
  · exact hs.of_idle

theorem of_registered (hs : ServerSound prover checker own peer t)
    (hasked : .register ∈ t.asked) (id : SessionId) :
    ServerSound prover checker own peer
      (((t.told .register).grants id).does (t.machine.registered id)) := by
  -- The question that is being answered accounts for the one registration there can be.
  have hcount : (t.asked.erase .register).count .register = t.asked.count .register - 1 :=
    List.count_erase_self
  have hpos : 0 < t.asked.count .register := List.count_pos_iff.mpr hasked
  have hanswered := hs.answered
  have hle := hs.registrations_le
  have hone : t.registrations = 1 := by omega
  have hgranted : t.granted = [] := List.length_eq_zero_iff.mp (by omega)
  have hnone : t.machine.session = none := by
    cases hid : t.machine.session with
    | none => rfl
    | some id' => exact absurd (hgranted.symm.trans (hs.named id' hid).1) (by simp)
  have hcounted : ((t.told .register).grants id).asked.count .register
      + ((t.told .register).grants id).granted.length ≤ t.registrations := by
    simp only [Tended.told, Tended.grants, hcount, hgranted, List.nil_append, List.length_singleton]
    omega
  unfold Machine.registered
  split
  · rename_i h
    obtain ⟨hpeer, hversion⟩ := hs.introduced (.inr h.2)
    constructor
    · exact hs.role_eq
    · exact hs.own_eq
    · simpa using hle
    · simpa [List.filterMap_cons, Action.challenge?] using hs.verified
    · simpa using hcounted
    · rintro (hstage | hstage) <;> exact Stage.noConfusion hstage
    · exact fun _ hstage ↦ Stage.noConfusion hstage
    · rintro (hstage | hstage) <;> exact Stage.noConfusion hstage
    · rintro (hstage | hstage | hstage) <;> exact Stage.noConfusion hstage
    · intro id' hid
      obtain rfl : id = id' := Option.some.inj hid
      refine ⟨by simp [Tended.told, Tended.grants, hgranted], ?_, hpeer, hversion⟩
      simpa using hone
  · have hidle : ServerSound prover checker own peer ((t.told .register).grants id) := {
      hs with
      answered := hcounted
      named := fun id' hid ↦ absurd (hnone.symm.trans hid) (by simp) }
    exact hidle.of_idle

end ServerSound

/-- The server does not go back on the name of its session, and sends nothing that is not so. -/
structure Truthful (own : Hello) (t : Tended) (r : Machine.Reaction) : Prop where
  session : ∀ id, t.machine.session = some id → r.2.session = some id
  tells : ∀ msg ∈ r.1.filterMap Action.message?,
    TellsClient own (t.does r).challenges r.2.session msg

namespace Truthful

variable {prover checker own peer} {t : Tended}

theorem of_stops {r : Machine.Reaction} (hown : t.machine.own = own) (h : t.machine.Stops r) :
    Truthful own t r where
  session id hid := h.session_eq.trans hid
  tells msg hmsg := by
    have hparting := h.of_message hmsg
    unfold TellsClient
    split
    · exact hparting.trans hown
    · exact hparting.elim
    · exact hparting.elim
    · trivial

theorem of_idle (own : Hello) (t : Tended) : Truthful own t t.machine.idle where
  session _ hid := hid
  tells _ hmsg := absurd hmsg List.not_mem_nil

theorem of_serves {r : Machine.Reaction} {msg : Message} (hown : t.machine.own = own)
    (hserves : t.machine.Serves checker msg r) : Truthful own t r := by
  cases hserves with
  | stops h => exact of_stops hown h
  | greets _ _ =>
    refine ⟨fun _ hid ↦ hid, fun msg hmsg ↦ ?_⟩
    obtain rfl : msg = .hello t.machine.own := by
      simpa [List.filterMap_cons, Action.message?] using hmsg
    exact hown
  | verifies _ _ _ _ => exact ⟨fun _ hid ↦ hid, fun _ hmsg ↦ absurd hmsg List.not_mem_nil⟩

theorem of_admitted (own : Hello) (t : Tended) (nonce : Nonce) :
    Truthful own t (t.machine.admitted nonce) := by
  unfold Machine.admitted
  split
  · refine ⟨fun _ hid ↦ hid, fun msg hmsg ↦ ?_⟩
    obtain rfl : msg = .auth (.challenge nonce) := by
      simpa [List.filterMap_cons, Action.message?] using hmsg
    simp [TellsClient, Action.challenge?]
  · exact of_idle own t

theorem of_registered (hs : ServerSound prover checker own peer t) (id : SessionId) :
    Truthful own t (t.machine.registered id) := by
  unfold Machine.registered
  split
  · rename_i h
    have hnone := hs.nameless (.inr (.inr h.2))
    refine ⟨fun _ hid ↦ absurd (hnone.symm.trans hid) (by simp), fun msg hmsg ↦ ?_⟩
    obtain rfl : msg = .authResult ⟨true, some id⟩ := by
      simpa [List.filterMap_cons, Action.message?] using hmsg
    rfl
  · exact of_idle own t

end Truthful

/-! ## What the client keeps -/

namespace ClientSound

variable {prover own peer} {session : Option SessionId} {m : Machine}

theorem mono {session' : Option SessionId} (hc : ClientSound prover own peer session m)
    (h : ∀ id, session = some id → session' = some id) :
    ClientSound prover own peer session' m where
  role_eq := hc.role_eq
  own_eq := hc.own_eq
  introduced := hc.introduced
  established hstage := by
    obtain ⟨id, hclient, hserver⟩ := hc.established hstage
    exact ⟨id, hclient, h id hserver⟩

theorem of_stops {r : Machine.Reaction} (hc : ClientSound prover own peer session m)
    (h : m.Stops r) : ClientSound prover own peer session r.2 where
  role_eq := h.role_eq.trans hc.role_eq
  own_eq := h.own_eq.trans hc.own_eq
  introduced := by
    have hterminal := h.terminal
    rintro (hstage | hstage | hstage) <;> rw [hstage] at hterminal <;> nomatch hterminal
  established hstage := absurd hstage (Stage.ne_established_of_terminal h.terminal)

private theorem of_attends {challenges : List Nonce} {r : Machine.Reaction} {msg : Message}
    (hc : ClientSound prover own peer session m) (htells : TellsClient peer challenges session msg)
    (hattends : m.Attends prover msg r) : ClientSound prover own peer session r.2 := by
  cases hattends with
  | stops h => exact hc.of_stops h
  | @greets h v hstage hv =>
    obtain rfl : h = peer := htells
    rw [hc.own_eq] at hv
    obtain ⟨hmajor, rfl⟩ := Version.negotiate_eq_some_iff.mp hv
    exact ⟨hc.role_eq, hc.own_eq, fun _ ↦ ⟨rfl, hmajor, rfl⟩, Stage.noConfusion⟩
  | answers hstage =>
    exact ⟨hc.role_eq, hc.own_eq, fun _ ↦ hc.introduced (.inl hstage), Stage.noConfusion⟩
  | @joins id hstage =>
    exact ⟨hc.role_eq, hc.own_eq, fun _ ↦ hc.introduced (.inr (.inl hstage)),
      fun _ ↦ ⟨id, rfl, htells⟩⟩

theorem tells_of_stops {challenges : List Nonce} {r : Machine.Reaction}
    (hc : ClientSound prover own peer session m) (h : m.Stops r) :
    ∀ msg ∈ r.1.filterMap Action.message?, TellsServer prover own challenges msg := by
  intro msg hmsg
  have hparting := h.of_message hmsg
  unfold TellsServer
  split
  · exact hparting.trans hc.own_eq
  · exact hparting.elim
  · trivial

private theorem tells_of_attends {challenges : List Nonce} {r : Machine.Reaction} {msg : Message}
    (hc : ClientSound prover own peer session m) (htells : TellsClient peer challenges session msg)
    (hattends : m.Attends prover msg r) :
    ∀ msg' ∈ r.1.filterMap Action.message?, TellsServer prover own challenges msg' := by
  cases hattends with
  | stops h => exact hc.tells_of_stops h
  | greets _ _ => exact fun _ hmsg ↦ absurd hmsg List.not_mem_nil
  | @answers nonce _ =>
    intro msg' hmsg
    obtain rfl : msg' = .auth (.response (prover.respond nonce m.own.identity)) := by
      simpa [List.filterMap_cons, Action.message?] using hmsg
    exact ⟨nonce, htells, by rw [hc.own_eq]⟩
  | joins _ => exact fun _ hmsg ↦ absurd hmsg List.not_mem_nil

private theorem start_eq (hc : ClientSound prover own peer session m) :
    m.start.2 = m ∧ ∀ msg ∈ m.start.1.filterMap Action.message?, msg = .hello own := by
  unfold Machine.start
  split
  · exact ⟨rfl, by simp [Action.message?, hc.own_eq]⟩
  · exact ⟨rfl, fun _ hmsg ↦ absurd hmsg List.not_mem_nil⟩

end ClientSound

/-! ## What an event keeps -/

theorem TellsServer.mono {challenges challenges' : List Nonce} {msg : Message}
    (h : TellsServer prover own challenges msg) (hsub : challenges ⊆ challenges') :
    TellsServer prover own challenges' msg := by
  unfold TellsServer at h ⊢
  split at h
  · exact h
  · obtain ⟨nonce, hmem, heq⟩ := h
    exact ⟨nonce, hsub hmem, heq⟩
  · trivial

theorem TellsClient.mono {challenges challenges' : List Nonce} {session session' : Option SessionId}
    {msg : Message} (h : TellsClient own challenges session msg) (hsub : challenges ⊆ challenges')
    (hsession : ∀ id, session = some id → session' = some id) :
    TellsClient own challenges' session' msg := by
  unfold TellsClient at h ⊢
  split at h
  · exact h
  · exact hsub h
  · exact hsession _ h
  · trivial

namespace Machine

theorem stops_struck (m : Machine) (blow : Blow) : m.Stops (m.struck blow) := by
  cases blow with
  | fail why => exact stops_fail m why
  | abort why => exact stops_abort m why
  | finish => exact stops_finish m

end Machine

namespace Encounter

variable {prover checker own peer} {e : Encounter}

theorem Sound.clientDoes {r : Machine.Reaction} (he : e.Sound prover checker own peer)
    (hclient : ClientSound prover own peer e.server.machine.session r.2)
    (htells : ∀ msg ∈ r.1.filterMap Action.message?,
      TellsServer prover own e.server.challenges msg) :
    (e.clientDoes r).Sound prover checker own peer where
  client := hclient
  server := he.server
  toServer := List.forall_mem_append.mpr ⟨he.toServer, htells⟩
  toClient := he.toClient

/-- The server may have been told something first, as long as this leaves alone what it has said
and what it holds. -/
theorem Sound.serverDoes {t : Tended} {r : Machine.Reaction} (he : e.Sound prover checker own peer)
    (hmachine : t.machine = e.server.machine) (hchallenges : t.challenges = e.server.challenges)
    (hserver : ServerSound prover checker peer own (t.does r)) (htruthful : Truthful peer t r) :
    (e.serverDoes t r).Sound prover checker own peer := by
  have hsub : e.server.challenges ⊆ (t.does r).challenges := by
    rw [Tended.challenges_does, hchallenges]
    exact List.subset_append_left _ _
  have hsession : ∀ id, e.server.machine.session = some id → r.2.session = some id :=
    hmachine ▸ htruthful.session
  constructor
  · exact he.client.mono hsession
  · exact hserver
  · exact fun msg hmsg ↦ (he.toServer msg hmsg).mono _ _ hsub
  · refine List.forall_mem_append.mpr ⟨fun msg hmsg ↦ ?_, htruthful.tells⟩
    exact (he.toClient msg hmsg).mono _ hsub hsession

theorem sound_fresh (prover : Prover) (checker : Checker) (ours theirs : Hello) :
    (fresh prover checker ours theirs).Sound prover checker ours theirs where
  client := ⟨rfl, rfl, (by rintro (h | h | h) <;> nomatch h), Stage.noConfusion⟩
  server := by
    constructor
    · rfl
    · rfl
    · exact Nat.zero_le 1
    · exact fun h ↦ nomatch h
    · exact Nat.le_refl 0
    · exact fun _ ↦ rfl
    · exact fun _ h ↦ nomatch h
    · rintro (h | h) <;> nomatch h
    · exact fun _ ↦ rfl
    · exact fun _ h ↦ nomatch h
  toServer _ hmsg := absurd hmsg List.not_mem_nil
  toClient _ hmsg := absurd hmsg List.not_mem_nil

private theorem Sound.arrive_client (he : e.Sound prover checker own peer) :
    (e.step (.arrive .client)).Sound prover checker own peer := by
  simp only [Encounter.step]
  split
  · exact he
  · rename_i msg rest hqueue
    have htells := he.toClient msg (hqueue ▸ List.mem_cons_self)
    have hrest : ({ e with toClient := rest } : Encounter).Sound prover checker own peer :=
      { he with toClient := fun m hm ↦ he.toClient m (hqueue ▸ List.mem_cons_of_mem msg hm) }
    have hattends := Machine.attends_onMessage he.client.role_eq msg
    exact hrest.clientDoes (he.client.of_attends htells hattends)
      (he.client.tells_of_attends htells hattends)

private theorem Sound.arrive_server (he : e.Sound prover checker own peer) :
    (e.step (.arrive .server)).Sound prover checker own peer := by
  simp only [Encounter.step]
  split
  · exact he
  · rename_i msg rest hqueue
    have htells := he.toServer msg (hqueue ▸ List.mem_cons_self)
    have hrest : ({ e with toServer := rest } : Encounter).Sound prover checker own peer :=
      { he with toServer := fun m hm ↦ he.toServer m (hqueue ▸ List.mem_cons_of_mem msg hm) }
    have hserves := Machine.serves_onMessage he.server.role_eq msg
    exact hrest.serverDoes rfl rfl (he.server.of_serves htells hserves)
      (.of_serves he.server.own_eq hserves)

theorem Sound.reserved (he : e.Sound prover checker own peer) (verdict : Except Failure Nonce) :
    (e.step (.reserved verdict)).Sound prover checker own peer := by
  have htold := he.server.told .reserve
  simp only [Encounter.step]
  split
  · cases verdict with
    | ok nonce => exact he.serverDoes rfl rfl (htold.of_admitted nonce) (.of_admitted _ _ nonce)
    | error why =>
      have hstops := Machine.stops_fail e.server.machine why
      exact he.serverDoes rfl rfl (htold.of_stops hstops) (.of_stops htold.own_eq hstops)
  · exact he

theorem Sound.registered (he : e.Sound prover checker own peer)
    (verdict : Except Failure SessionId) :
    (e.step (.registered verdict)).Sound prover checker own peer := by
  have htold := he.server.told .register
  simp only [Encounter.step]
  split
  · rename_i hasked
    cases verdict with
    | ok id =>
      exact he.serverDoes rfl rfl (he.server.of_registered hasked id)
        ⟨(Truthful.of_registered he.server id).session, (Truthful.of_registered he.server id).tells⟩
    | error why =>
      have hstops := Machine.stops_fail e.server.machine why
      exact he.serverDoes rfl rfl (htold.of_stops hstops) (.of_stops htold.own_eq hstops)
  · exact he

/-- **Whatever happens, the invariant stays true.** -/
theorem Sound.step (he : e.Sound prover checker own peer) (event : Occurrence) :
    (e.step event).Sound prover checker own peer := by
  cases event with
  | start =>
    obtain ⟨hmachine, hsends⟩ := he.client.start_eq
    refine he.clientDoes (hmachine.symm ▸ he.client) fun msg hmsg ↦ ?_
    rw [hsends msg hmsg]
    rfl
  | arrive side =>
    cases side with
    | client => exact he.arrive_client
    | server => exact he.arrive_server
  | reserved verdict => exact he.reserved verdict
  | registered verdict => exact he.registered verdict
  | strike side blow =>
    cases side with
    | client =>
      have hstops := Machine.stops_struck e.client blow
      exact he.clientDoes (he.client.of_stops hstops) (he.client.tells_of_stops hstops)
    | server =>
      have hstops := Machine.stops_struck e.server.machine blow
      exact he.serverDoes rfl rfl (he.server.of_stops hstops)
        (.of_stops he.server.own_eq hstops)

theorem Sound.run (he : e.Sound prover checker own peer) (events : List Occurrence) :
    (e.run events).Sound prover checker own peer := by
  induction events generalizing e with
  | nil => exact he
  | cons event events ih => exact ih (he.step event)

/-- **Agreement.** However the two machines run, if the client is established then it has a name,
which is the one name the server was told, both run at the version that their hellos make, each
knows who the other is, and the server has asked for its registration once the client's answer to
the one challenge of the connection had been checked. -/
theorem agreement (prover : Prover) (checker : Checker) (ours theirs : Hello)
    (events : List Occurrence) :
    let e := (fresh prover checker ours theirs).run events
    e.client.stage = .established →
    (∃ id, e.client.session = some id ∧ e.server.granted = [id]
      ∧ e.server.machine.session = some id)
    ∧ (∃ v, e.client.version = some v ∧ e.server.machine.version = some v
      ∧ v.major = ours.version.major ∧ v.major = theirs.version.major
      ∧ v.minor = min ours.version.minor theirs.version.minor)
    ∧ e.client.peer = some theirs.identity ∧ e.server.machine.peer = some ours.identity
    ∧ e.server.log.count .register = 1
    ∧ ∃ nonce, e.server.log.filterMap Action.challenge? = [nonce]
      ∧ checker.verify nonce (prover.respond nonce ours.identity) ours.identity = true := by
  intro e hup
  obtain ⟨hclient, hserver, -, -⟩ := (sound_fresh prover checker ours theirs).run events
  obtain ⟨id, hid, hname⟩ := hclient.established hup
  obtain ⟨hpeer, hmajor, hversion⟩ := hclient.introduced (.inr (.inr hup))
  obtain ⟨hgranted, hregistrations, hserverPeer, hserverVersion⟩ := hserver.named id hname
  rw [← Hello.common_comm hmajor] at hserverVersion
  exact ⟨⟨id, hid, hgranted, hname⟩, ⟨_, hversion, hserverVersion, rfl, hmajor, rfl⟩, hpeer,
    hserverPeer, hregistrations, hserver.verified hregistrations⟩

/-- A client and a server that are left alone do come to an agreement. -/
theorem agreement_undisturbed :
    let prover : Prover := ⟨fun nonce _ ↦ nonce.bytes⟩
    let checker : Checker := ⟨fun nonce credential _ ↦ credential == nonce.bytes⟩
    let name : Uuid := ⟨List.replicate 16 7, rfl⟩
    let ours : Hello := ⟨⟨1, 0⟩, name, "laptop", 0⟩
    let theirs : Hello := ⟨⟨1, 2⟩, name, "desk", 0⟩
    ∃ e, e = (fresh prover checker ours theirs).run (undisturbed .zero ⟨name⟩)
      ∧ e.client.stage = .established ∧ ∃ id, e.client.session = some id ∧ e.server.granted = [id]
      ∧ e.server.machine.session = some id := by
  intro prover checker name ours theirs
  have hup := stage_undisturbed prover checker ours theirs .zero ⟨name⟩ rfl
    (beq_self_eq_true Nonce.zero.bytes)
  exact ⟨_, rfl, hup, (agreement prover checker ours theirs _ hup).1⟩

end Encounter

end DeskLink.Handshake
