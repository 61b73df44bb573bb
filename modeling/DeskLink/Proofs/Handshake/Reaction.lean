import DeskLink.Handshake.Machine

/-!
# What a reaction can be

A run of a handshake is made of reactions, so this file says once what a single reaction can be.
Most of them are the same: the machine stops. Whatever made it stop, it has then done nothing but
say who it is, report, refuse and close, and everything it had agreed on is still there. `Stops`
collects these; a machine that had stopped before, and one whose connection is gone, are among them.

The reactions that go on are few, and each leads exactly one stage further. `Serves` lists those
of a server to a message, `Attends` those of a client.

`through` strings reactions together.
-/

namespace DeskLink

/-- The version at which two nodes of one major version run. -/
def Hello.common (own peer : Hello) : Version :=
  ⟨own.version.major, min own.version.minor peer.version.minor⟩

theorem Hello.common_comm {own peer : Hello} (h : own.version.major = peer.version.major) :
    own.common peer = peer.common own := by
  have hmin : ∀ a b : UInt8, (if a ≤ b then a else b) = if b ≤ a then b else a := by grind
  rw [common, common, h]
  exact congrArg (Version.mk _) (hmin _ _)

namespace Handshake

/-! ## Stopping -/

/-- What a machine that stops may still do: say who it is, report, refuse, close. -/
def Action.Parting (own : Hello) : Action → Prop
  | .send (.hello h) => h = own
  | .send (.report _) | .send (.authResult ⟨false, none⟩) | .close _ => True
  | _ => False

/-- The leg of the proof that an action sends. -/
def Action.auth? : Action → Option Auth
  | .send (.auth a) => some a
  | _ => none

theorem Stage.ne_connected_of_terminal {s : Stage} (h : s.terminal = true) : s ≠ .connected := by
  rintro rfl
  exact absurd h Bool.false_ne_true

theorem Stage.ne_established_of_terminal {s : Stage} (h : s.terminal = true) :
    s ≠ .established := by
  rintro rfl
  exact absurd h Bool.false_ne_true

namespace Machine

/-- The machine is over after this reaction, and has not gone back on anything. -/
structure Stops (m : Machine) (r : Reaction) : Prop where
  parting : ∀ a ∈ r.1, a.Parting m.own
  terminal : r.2.stage.terminal = true
  role_eq : r.2.role = m.role
  own_eq : r.2.own = m.own
  session_eq : r.2.session = m.session
  version_eq : r.2.version = m.version
  /-- Only the hello that opens a connection says who the other side is. -/
  peer_eq : m.stage ≠ .connected → r.2.peer = m.peer

variable {m : Machine}

theorem stops_idle (h : m.stage.terminal = true) : m.Stops m.idle where
  parting a ha := by simp [idle] at ha
  terminal := h
  role_eq := rfl
  own_eq := rfl
  session_eq := rfl
  version_eq := rfl
  peer_eq _ := rfl

theorem stops_abort (m : Machine) (why : Failure) : m.Stops (m.abort why) := by
  rw [abort]
  split
  · exact stops_idle ‹_›
  · exact ⟨by simp [Action.Parting], rfl, rfl, rfl, rfl, rfl, fun _ ↦ rfl⟩

theorem stops_fail (m : Machine) (why : Failure) : m.Stops (m.fail why) := by
  rw [fail]
  split
  · exact stops_idle ‹_›
  · obtain ⟨hparting, hterminal, hrole, hown, hsession, hversion, hpeer⟩ := stops_abort m why
    refine ⟨?_, hterminal, hrole, hown, hsession, hversion, hpeer⟩
    intro a ha
    rcases List.mem_append.mp ha with hreport | habort
    · rw [Option.mem_toList, Option.map_eq_some_iff] at hreport
      obtain ⟨report, -, rfl⟩ := hreport
      trivial
    · exact hparting a habort

theorem stops_finish (m : Machine) : m.Stops ([], m.finish) :=
  ⟨by simp, rfl, rfl, rfl, rfl, rfl, fun _ ↦ rfl⟩

theorem Stops.after {m₀ : Machine} {r : Reaction} (h : m.Stops r) (before : List Action)
    (hbefore : ∀ a ∈ before, a.Parting m₀.own) (hrole : m.role = m₀.role) (hown : m.own = m₀.own)
    (hsession : m.session = m₀.session) (hversion : m.version = m₀.version)
    (hpeer : m₀.stage ≠ .connected → r.2.peer = m₀.peer) : m₀.Stops (before ++ r.1, r.2) where
  parting a ha := by
    rcases List.mem_append.mp ha with ha | ha
    · exact hbefore a ha
    · exact hown ▸ h.parting a ha
  terminal := h.terminal
  role_eq := h.role_eq.trans hrole
  own_eq := h.own_eq.trans hown
  session_eq := h.session_eq.trans hsession
  version_eq := h.version_eq.trans hversion
  peer_eq := hpeer

/-! ## Reacting to a message -/

/-- What a server can do with a message. -/
inductive Serves (m : Machine) (checker : Checker) : Message → Reaction → Prop where
  | stops {msg : Message} {r : Reaction} (h : m.Stops r) : Serves m checker msg r
  /-- A hello of the own major version opens the connection. -/
  | greets {h : Hello} {v : Version} (hstage : m.stage = .connected)
      (hv : m.own.version.negotiate h.version = some v) :
      Serves m checker (.hello h) ([.send (.hello m.own), .reserve],
        { m with peer := some h.identity, version := some v, stage := .helloExchanged })
  /-- The answer to the open challenge is right. -/
  | verifies {credential : Bytes} {nonce : Nonce} {peer : Identity}
      (hstage : m.stage = .authPending) (hnonce : m.nonce = some nonce) (hpeer : m.peer = some peer)
      (hverify : checker.verify nonce credential peer = true) :
      Serves m checker (.auth (.response credential)) ([.register], { m with nonce := none })

/-- What a client can do with a message. -/
inductive Attends (m : Machine) (prover : Prover) : Message → Reaction → Prop where
  | stops {msg : Message} {r : Reaction} (h : m.Stops r) : Attends m prover msg r
  /-- A hello of the own major version opens the connection. -/
  | greets {h : Hello} {v : Version} (hstage : m.stage = .connected)
      (hv : m.own.version.negotiate h.version = some v) :
      Attends m prover (.hello h)
        ([], { m with peer := some h.identity, version := some v, stage := .helloExchanged })
  /-- The challenge is answered. -/
  | answers {nonce : Nonce} (hstage : m.stage = .helloExchanged) :
      Attends m prover (.auth (.challenge nonce))
        ([.send (.auth (.response (prover.respond nonce m.own.identity)))],
          { m with stage := .authPending })
  /-- The verdict accepts and names the session. -/
  | joins {id : SessionId} (hstage : m.stage = .authPending) :
      Attends m prover (.authResult ⟨true, some id⟩)
        ([.establish id], { m with session := some id, stage := .established })

theorem stops_mismatch {h : Hello} (hstage : m.stage = .connected) (said : List Action)
    (hsaid : ∀ a ∈ said, a.Parting m.own) (why : Failure) :
    m.Stops (said ++ (fail { m with peer := some h.identity } why).1,
      (fail { m with peer := some h.identity } why).2) :=
  (stops_fail _ why).after said hsaid rfl rfl rfl rfl fun hne ↦ absurd hstage hne

private theorem serves_judge {checker : Checker} {credential : Bytes}
    (hstage : m.stage = .authPending) :
    m.Serves checker (.auth (.response credential)) (m.judge checker credential) := by
  have hstops := stops_abort { m with nonce := none } .authFailed
  have hrefuse : m.Stops ([.send (.authResult ⟨false, none⟩)] ++ _, _) :=
    hstops.after _ (by simp [Action.Parting]) rfl rfl rfl rfl hstops.peer_eq
  simp only [judge]
  split
  · split
    · exact .verifies hstage ‹_› ‹_› ‹_›
    · exact .stops hrefuse
  · exact .stops hrefuse

private theorem serves_serverStep {checker : Checker} (msg : Message) :
    m.Serves checker msg (m.serverStep checker msg) := by
  unfold serverStep
  split
  · rename_i h hstage
    cases hv : m.own.version.negotiate h.version with
    | none =>
      simp only [compareVersions, hv, (stops_fail _ _).own_eq]
      exact .stops (stops_mismatch hstage [.send (.hello m.own)] (by simp [Action.Parting]) _)
    | some v => simpa [compareVersions, hv] using .greets hstage hv
  · exact serves_judge ‹_›
  · exact .stops (stops_fail m _)

private theorem attends_clientStep {prover : Prover} (msg : Message) :
    m.Attends prover msg (m.clientStep prover msg) := by
  unfold clientStep
  split
  · rename_i h hstage
    cases hv : m.own.version.negotiate h.version with
    | none =>
      simp only [compareVersions, hv]
      exact .stops (stops_mismatch hstage [] (by simp) _)
    | some v => simpa [compareVersions, hv] using .greets hstage hv
  · exact .answers ‹_›
  · exact .joins ‹_›
  · exact .stops (stops_abort m _)
  · exact .stops (stops_fail m _)

theorem serves_onMessage {checker : Checker} (hrole : m.role = .server checker) (msg : Message) :
    m.Serves checker msg (m.onMessage msg) := by
  unfold onMessage
  split
  · exact .stops (stops_idle ‹_›)
  · cases msg with
    | report r => exact .stops (stops_abort m _)
    | close reason => exact .stops (stops_abort m _)
    | _ =>
      simp only [hrole]
      exact serves_serverStep _

theorem attends_onMessage {prover : Prover} (hrole : m.role = .client prover) (msg : Message) :
    m.Attends prover msg (m.onMessage msg) := by
  unfold onMessage
  split
  · exact .stops (stops_idle ‹_›)
  · cases msg with
    | report r => exact .stops (stops_abort m _)
    | close reason => exact .stops (stops_abort m _)
    | _ =>
      simp only [hrole]
      exact attends_clientStep _

/-! ## One reaction after another -/

/-- The reactions to one input after another. -/
def through {ι : Type} (react : Machine → ι → Reaction) (m : Machine) : List ι → Reaction
  | [] => m.idle
  | i :: rest =>
    let (actions, m) := react m i
    let (later, m) := through react m rest
    (actions ++ later, m)

section Through

variable {ι : Type} {react : Machine → ι → Reaction} {m : Machine}

@[simp] theorem through_nil : m.through react [] = ([], m) := rfl

theorem through_cons (i : ι) (rest : List ι) :
    m.through react (i :: rest) = ((react m i).1 ++ ((react m i).2.through react rest).1,
      ((react m i).2.through react rest).2) := rfl

theorem through_of_absorbing {inputs : List ι} (h : ∀ i ∈ inputs, react m i = ([], m)) :
    m.through react inputs = ([], m) := by
  induction inputs with
  | nil => rfl
  | cons i rest ih =>
    rw [through_cons, h i List.mem_cons_self, ih fun j hj ↦ h j (List.mem_cons_of_mem i hj)]
    rfl

end Through

theorem onMessage_of_terminal {m : Machine} (h : m.stage.terminal = true) (msg : Message) :
    m.onMessage msg = ([], m) := by
  unfold onMessage
  rw [if_pos h, idle]

end Machine

end Handshake

end DeskLink
