import DeskLink.Proofs.Handshake.Moves
import DeskLink.Proofs.Handshake.Reaction

/-!
# What is seen of a handshake

A `Record` is a handshake on its way together with what was seen of it: the messages that it has
heard, what the registry was asked and has answered, whether the stream has been shut, and whether
the budget was used up when the machine was closing already.

## The invariant

The actions that a conduct still has to carry out are added to, taken one by one and thrown away
when a message cannot be sent. Nevertheless they always come down to the same: after some messages,
there is exactly the one thing left that the stage of the machine calls for, and to hear a message
is called for where nothing is left (`Machine.Next`). In particular, a machine that is closing has
its `close` before it, with the failure that it is closing for.

With what the machine knows (`Machine.Knows`) and what has been asked for at its stage
(`Machine.Dealt`), this is what every move keeps.
-/

namespace DeskLink.Handshake

/-! ## What is recorded -/

/-- What the registry was asked, and its answer. -/
inductive Dealing where
  | place (answer : Except Failure Unit)
  | session (peer : Identity) (version : Version) (answer : Except Failure SessionId)

/-- What the registry was asked in a move. -/
def Effect.dealing? (o : Offer) : Effect → Option Dealing
  | .reserved => some (.place o.reserve)
  | .registered peer version => some (.session peer version (o.register peer version))
  | _ => Option.none

/-- A session is asked for at most once, after a place was given. -/
inductive Orderly : List Dealing → Prop where
  | nothing : Orderly []
  | place {answer : Except Failure Unit} : Orderly [.place answer]
  | session {peer : Identity} {version : Version} {answer : Except Failure SessionId} :
      Orderly [.place (.ok ()), .session peer version answer]

namespace Conduct

/-- The message that is heard in the move at this offer. -/
def hears? (c : Conduct) (o : Offer) : Option Message :=
  match c.phase, (c.link.receive o.read).1 with
  | .acting [], .frame m? => m?
  | _, _ => none

/-- The budget is used up when the machine is closing and a message is on its way. -/
def overtakes (c : Conduct) (o : Offer) : Bool :=
  match c.phase with
  | .sending t _ => c.machine.stage.terminal && t.advance o.write o.flush = .blocked
      && decide (c.deadline ≤ o.now)
  | _ => false

end Conduct

/-- A handshake and what was seen of it. -/
structure Record where
  conduct : Conduct
  heard : List Message
  dealings : List Dealing
  /-- The failure with which the machine has started to close. -/
  first : Option Failure
  overtaken : Bool
  shut : Bool

namespace Record

def begin (c : Conduct) : Record := ⟨c, [], [], c.machine.failure, false, false⟩

/-- The record after a move, if there is one. -/
def meets (r : Record) (o : Offer) : Record :=
  match r.conduct.step o with
  | none => r
  | some (conduct, effect) =>
    { conduct
      heard := r.heard ++ (r.conduct.hears? o).toList
      dealings := r.dealings ++ (effect.dealing? o).toList
      first := r.first.or conduct.machine.failure
      overtaken := r.overtaken || r.conduct.overtakes o
      shut := r.shut || decide (effect = .shut) }

/-- The record after everything that was offered. -/
def run (r : Record) (offers : List Offer) : Record := offers.foldl meets r

end Record

/-! ## What comes next -/

namespace Machine

/-- What a conduct of this machine has to do, whatever it says before. -/
inductive Next (m : Machine) : List Action → Prop where
  | tells {said : Message} {rest : List Action} (h : Next m rest) : Next m (.send said :: rest)
  | hears (hstage : m.stage = .connected ∨ m.stage = .authPending ∨
      m.stage = .helloExchanged ∧ m.role.isServer = false) : Next m []
  | reserves (hstage : m.stage = .helloExchanged) (hrole : m.role.isServer = true) :
      Next m [.reserve]
  | registers (hstage : m.stage = .authPending) (hrole : m.role.isServer = true) :
      Next m [.register]
  | establishes {id : SessionId} (hstage : m.stage = .established)
      (hsession : m.session = some id) : Next m [.establish id]
  | closes {why : Failure} (hstage : m.stage = .closing) (hfailure : m.failure = some why) :
      Next m [.close why]

/-- The other side has said this hello, and its version is compatible. -/
structure Met (m : Machine) (h : Hello) : Prop where
  peer_eq : m.peer = some h.identity
  version_eq : ∃ v, m.version = some v ∧ m.own.version.negotiate h.version = some v

/-- What the machine knows of the other side is what it has heard first. -/
def Knows (m : Machine) (heard : List Message) : Prop :=
  match m.stage with
  | .connected => heard = []
  | .helloExchanged | .authPending | .established =>
    ∃ h more, heard = .hello h :: more ∧ m.Met h
  | .closing | .closed => True

/-- What the registry has been asked by this stage. -/
inductive Dealt (m : Machine) : List Dealing → Prop where
  | nothing (hstage : m.role.isServer = false ∨ m.stage = .connected ∨ m.stage = .helloExchanged) :
      Dealt m []
  | place (hstage : m.stage = .authPending) (hrole : m.role.isServer = true) :
      Dealt m [.place (.ok ())]
  | session {peer : Identity} {version : Version} {id : SessionId} (hstage : m.stage = .established)
      (hrole : m.role.isServer = true) (hsession : m.session = some id) :
      Dealt m [.place (.ok ()), .session peer version (.ok id)]
  | past {dealings : List Dealing} (hterminal : m.stage.terminal = true)
      (horderly : Orderly dealings) : Dealt m dealings

variable {m : Machine} {heard : List Message} {dealings : List Dealing} {pending : List Action}

private theorem Knows.of_terminal (h : m.stage.terminal = true) (heard : List Message) :
    m.Knows heard := by
  unfold Knows
  cases hstage : m.stage <;> simp_all [Stage.terminal]

theorem Dealt.orderly (h : m.Dealt dealings) : Orderly dealings := by
  cases h with
  | nothing => exact .nothing
  | place => exact .place
  | session => exact .session
  | past _ horderly => exact horderly

theorem Next.open_of_nil (h : m.Next []) : m.stage.terminal = false := by
  cases h with
  | hears hstage => rcases hstage with hstage | hstage | ⟨hstage, -⟩ <;> rw [hstage] <;> rfl

private theorem Next.of_send {said : Message} (h : m.Next (.send said :: pending)) :
    m.Next pending := by
  cases h with
  | tells h => exact h

theorem Next.of_reserve (h : m.Next (.reserve :: pending)) :
    pending = [] ∧ m.stage = .helloExchanged ∧ m.role.isServer = true := by
  cases h with
  | reserves hstage hrole => exact ⟨rfl, hstage, hrole⟩

theorem Next.of_register (h : m.Next (.register :: pending)) :
    pending = [] ∧ m.stage = .authPending ∧ m.role.isServer = true := by
  cases h with
  | registers hstage hrole => exact ⟨rfl, hstage, hrole⟩

/-- A machine that asks the registry is not over, and asks for nothing else. -/
theorem Next.of_ask {a : Action} (h : m.Next (a :: pending)) (ha : a = .reserve ∨ a = .register) :
    pending = [] ∧ m.stage.terminal = false := by
  rcases ha with rfl | rfl
  · obtain ⟨hpending, hstage, -⟩ := h.of_reserve
    exact ⟨hpending, by rw [hstage]; rfl⟩
  · obtain ⟨hpending, hstage, -⟩ := h.of_register
    exact ⟨hpending, by rw [hstage]; rfl⟩

theorem Next.of_establish {id : SessionId} (h : m.Next (.establish id :: pending)) :
    m.stage = .established ∧ m.session = some id := by
  cases h with
  | establishes hstage hsession => exact ⟨hstage, hsession⟩

private theorem Next.of_close {why : Failure} (h : m.Next (.close why :: pending)) :
    m.stage = .closing ∧ m.failure = some why := by
  cases h with
  | closes hstage hfailure => exact ⟨hstage, hfailure⟩

/-- A machine that is over has nothing left to do but to close, and why. -/
theorem Next.closing (h : m.Next pending) (hterminal : m.stage.terminal = true) :
    m.stage = .closing ∧ ∃ why, m.failure = some why := by
  induction h with
  | tells _ ih => exact ih
  | hears hstage =>
    rcases hstage with hstage | hstage | ⟨hstage, -⟩ <;> simp [hstage, Stage.terminal] at hterminal
  | reserves hstage | registers hstage | establishes hstage =>
    simp [hstage, Stage.terminal] at hterminal
  | closes hstage hfailure => exact ⟨hstage, _, hfailure⟩

/-! ## Closing -/

/-- The machine starts closing with this reaction. -/
structure Closes (m : Machine) (r : Reaction) : Prop where
  next : r.2.Next r.1
  stage_eq : r.2.stage = .closing
  role_eq : r.2.role = m.role
  own_eq : r.2.own = m.own

theorem Closes.tells {r : Reaction} (h : m.Closes r) (said : Message) :
    m.Closes (.send said :: r.1, r.2) := ⟨.tells h.next, h.stage_eq, h.role_eq, h.own_eq⟩

theorem abort_of_open (hopen : m.stage.terminal = false) (why : Failure) :
    m.abort why = ([.close why], { m with stage := .closing, failure := some why }) := by
  rw [abort, hopen]
  rfl

theorem fail_of_open (hopen : m.stage.terminal = false) (why : Failure) :
    m.fail why = ((why.report?.map fun r ↦ Action.send (.report r)).toList ++ [.close why],
      { m with stage := .closing, failure := some why }) := by
  rw [fail, hopen, abort_of_open hopen]
  rfl

theorem closes_abort (hopen : m.stage.terminal = false) (why : Failure) :
    m.Closes (m.abort why) := by
  rw [abort_of_open hopen]
  exact ⟨.closes rfl rfl, rfl, rfl, rfl⟩

theorem closes_fail (hopen : m.stage.terminal = false) (why : Failure) : m.Closes (m.fail why) := by
  rw [fail_of_open hopen]
  cases why.report? with
  | none => exact ⟨.closes rfl rfl, rfl, rfl, rfl⟩
  | some r => exact ⟨.tells (.closes rfl rfl), rfl, rfl, rfl⟩

theorem closes_compareVersions (hopen : m.stage.terminal = false) {h : Hello} {agreed : List Action}
    (hover : (m.compareVersions h agreed).2.stage.terminal = true) :
    m.Closes (m.compareVersions h agreed) := by
  unfold compareVersions at hover ⊢
  dsimp only at hover ⊢
  split at hover
  · nomatch hover
  · have hfails := closes_fail (m := { m with peer := some h.identity }) hopen
      (.versionMismatch m.own.version (some h.version))
    exact ⟨hfails.next, hfails.stage_eq, hfails.role_eq, hfails.own_eq⟩

private theorem closes_judge (hopen : m.stage.terminal = false) {checker : Checker}
    {credential : Bytes} (hover : (m.judge checker credential).2.stage.terminal = true) :
    m.Closes (m.judge checker credential) := by
  have haborts := closes_abort (m := { m with nonce := none }) hopen .authFailed
  have hrefuses : ∀ said, m.Closes (.send said :: (abort { m with nonce := none } .authFailed).1,
      (abort { m with nonce := none } .authFailed).2) := fun said ↦
    ⟨.tells haborts.next, haborts.stage_eq, haborts.role_eq, haborts.own_eq⟩
  unfold judge at hover ⊢
  dsimp only at hover ⊢
  split at hover
  · split at hover
    · exact absurd (hopen.symm.trans hover) Bool.false_ne_true
    · rename_i hrefused
      rw [if_neg hrefused]
      exact hrefuses _
  · exact hrefuses _

/-- A server that is over after a message has started closing with it. -/
theorem closes_serverStep (hopen : m.stage.terminal = false) {checker : Checker} {msg : Message}
    (hover : (m.serverStep checker msg).2.stage.terminal = true) :
    m.Closes (m.serverStep checker msg) := by
  unfold serverStep at hover ⊢
  split at hover
  · exact (closes_compareVersions hopen hover).tells _
  · exact closes_judge hopen hover
  · exact closes_fail hopen _

private theorem closes_clientStep (hopen : m.stage.terminal = false) {prover : Prover}
    {msg : Message} (hover : (m.clientStep prover msg).2.stage.terminal = true) :
    m.Closes (m.clientStep prover msg) := by
  unfold clientStep at hover ⊢
  split at hover
  · exact closes_compareVersions hopen hover
  · nomatch hover
  · nomatch hover
  · exact closes_abort hopen _
  · exact closes_fail hopen _

theorem closes_onMessage (hopen : m.stage.terminal = false) (msg : Message)
    (hover : (m.onMessage msg).2.stage.terminal = true) : m.Closes (m.onMessage msg) := by
  unfold onMessage at hover ⊢
  rw [hopen] at hover ⊢
  cases msg with
  | report r => exact closes_abort hopen _
  | close reason => exact closes_abort hopen _
  | _ =>
    cases hrole : m.role with
    | server checker =>
      simp only [hrole] at hover ⊢
      exact closes_serverStep hopen hover
    | client prover =>
      simp only [hrole] at hover ⊢
      exact closes_clientStep hopen hover

/-! ## Going on -/

/-- A machine with what is still to be done, what it has heard and what the registry was asked. -/
structure OnCourse (m : Machine) (server : Bool) (own : Hello) (pending : List Action)
    (heard : List Message) (dealings : List Dealing) : Prop where
  isServer_eq : m.role.isServer = server
  own_eq : m.own = own
  next : m.Next pending
  knows : m.Knows heard
  dealt : m.Dealt dealings
  unfailed : m.stage.terminal = false → m.failure = none

namespace OnCourse

variable {server : Bool} {own : Hello}

theorem tells {said : Message} (h : m.OnCourse server own (.send said :: pending) heard dealings) :
    m.OnCourse server own pending heard dealings :=
  ⟨h.isServer_eq, h.own_eq, h.next.of_send, h.knows, h.dealt, h.unfailed⟩

theorem closes (h : m.OnCourse server own pending heard dealings) {r : Reaction}
    (hcloses : m.Closes r) (heard' : List Message) {dealings' : List Dealing}
    (horderly : Orderly dealings') : r.2.OnCourse server own r.1 heard' dealings' := by
  have hterminal : r.2.stage.terminal = true := by
    rw [hcloses.stage_eq]
    rfl
  exact ⟨hcloses.role_eq ▸ h.isServer_eq, hcloses.own_eq.trans h.own_eq, hcloses.next,
    .of_terminal hterminal heard', .past hterminal horderly,
    fun hopen ↦ absurd (hopen.symm.trans hterminal) Bool.false_ne_true⟩

/-- A failure closes the machine, unless it is closing already, and it keeps its first one. -/
theorem fails (h : m.OnCourse server own pending heard dealings) (why : Failure) :
    (m.fail why).2.stage = .closing ∧
      (∀ first, m.failure = some first → (m.fail why).2.failure = some first) ∧
      ∃ first, (m.fail why).2.failure = some first ∧
        why = if m.stage.terminal then why else first := by
  cases hterminal : m.stage.terminal with
  | true =>
    obtain ⟨hstage, first, hfirst⟩ := h.next.closing hterminal
    rw [Machine.fail, if_pos hterminal]
    exact ⟨hstage, fun _ ↦ id, first, hfirst, rfl⟩
  | false =>
    rw [Machine.fail_of_open hterminal]
    refine ⟨rfl, fun first hfirst ↦ ?_, _, rfl, rfl⟩
    exact absurd ((h.unfailed hterminal).symm.trans hfirst) (Option.some_ne_none first).symm

theorem heard_eq_nil (h : m.OnCourse server own pending heard dealings)
    (hstage : m.stage = .connected) : heard = [] := by
  have hknows := h.knows
  rwa [Knows, hstage] at hknows

theorem met (h : m.OnCourse server own pending heard dealings) (hstage : m.stage = .helloExchanged ∨
    m.stage = .authPending ∨ m.stage = .established) :
    ∃ hello more, heard = .hello hello :: more ∧ m.Met hello := by
  have hknows := h.knows
  unfold Knows at hknows
  rcases hstage with hstage | hstage | hstage <;> simpa only [hstage] using hknows

/-- Nothing is asked of the registry before the greeting, nor by a client. -/
theorem dealings_eq_nil (h : m.OnCourse server own pending heard dealings)
    (hopen : m.stage.terminal = false)
    (hearly : m.role.isServer = false ∨ m.stage = .connected ∨ m.stage = .helloExchanged) :
    dealings = [] := by
  cases h.dealt with
  | nothing => rfl
  | place hstage hrole | session hstage hrole => simp [hstage, hrole] at hearly
  | past hterminal => exact absurd (hopen.symm.trans hterminal) Bool.false_ne_true

/-- A server that waits for the answer to its challenge, or has it, was given a place. -/
theorem dealings_eq_place (h : m.OnCourse server own pending heard dealings)
    (hstage : m.stage = .authPending) (hrole : m.role.isServer = true) :
    dealings = [.place (.ok ())] := by
  cases h.dealt with
  | nothing hearly => simp [hstage, hrole] at hearly
  | place => rfl
  | session hestablished => simp [hstage] at hestablished
  | past hterminal => simp [hstage, Stage.terminal] at hterminal

private theorem serves {checker : Checker} (h : m.OnCourse server own [] heard dealings)
    (hrole : m.role = .server checker) (msg : Message) :
    (m.onMessage msg).2.OnCourse server own (m.onMessage msg).1 (heard ++ [msg]) dealings := by
  have hopen := h.next.open_of_nil
  have hserves := serves_onMessage hrole msg
  have hcloses := closes_onMessage hopen msg
  generalize m.onMessage msg = r at hserves hcloses
  have hserver : m.role.isServer = true := by rw [hrole, Role.isServer]
  cases hserves with
  | stops hstops => exact h.closes (hcloses hstops.terminal) _ h.dealt.orderly
  | @greets hello v hstage hv =>
    obtain rfl := h.heard_eq_nil hstage
    obtain rfl := h.dealings_eq_nil hopen (.inr (.inl hstage))
    exact ⟨h.isServer_eq, h.own_eq, .tells (.reserves rfl hserver),
      ⟨hello, [], rfl, rfl, v, rfl, hv⟩, .nothing (.inr (.inr rfl)), fun _ ↦ h.unfailed hopen⟩
  | verifies hstage _ _ _ =>
    obtain rfl := h.dealings_eq_place hstage hserver
    obtain ⟨hello, more, rfl, hmet⟩ := h.met (.inr (.inl hstage))
    refine ⟨h.isServer_eq, h.own_eq, .registers hstage hserver, ?_, .place hstage hserver,
      fun _ ↦ h.unfailed hopen⟩
    rw [Knows, hstage]
    exact ⟨hello, more ++ [_], rfl, hmet.peer_eq, hmet.version_eq⟩

private theorem attends {prover : Prover} (h : m.OnCourse server own [] heard dealings)
    (hrole : m.role = .client prover) (msg : Message) :
    (m.onMessage msg).2.OnCourse server own (m.onMessage msg).1 (heard ++ [msg]) dealings := by
  have hopen := h.next.open_of_nil
  have hattends := attends_onMessage hrole msg
  have hcloses := closes_onMessage hopen msg
  generalize m.onMessage msg = r at hattends hcloses
  have hclient : m.role.isServer = false := by rw [hrole, Role.isServer]
  obtain rfl := h.dealings_eq_nil hopen (.inl hclient)
  have hdealt : ∀ m' : Machine, m'.role = m.role → m'.Dealt [] := fun m' hsame ↦
    .nothing (.inl (hsame ▸ hclient))
  cases hattends with
  | stops hstops => exact h.closes (hcloses hstops.terminal) _ .nothing
  | @greets hello v hstage hv =>
    obtain rfl := h.heard_eq_nil hstage
    exact ⟨h.isServer_eq, h.own_eq, .hears (.inr (.inr ⟨rfl, hclient⟩)),
      ⟨hello, [], rfl, rfl, v, rfl, hv⟩, hdealt _ rfl,
      fun _ ↦ h.unfailed hopen⟩
  | answers hstage =>
    obtain ⟨hello, more, rfl, hmet⟩ := h.met (.inl hstage)
    exact ⟨h.isServer_eq, h.own_eq, .tells (.hears (.inr (.inl rfl))),
      ⟨hello, more ++ [_], rfl, hmet.peer_eq, hmet.version_eq⟩, hdealt _ rfl,
      fun _ ↦ h.unfailed hopen⟩
  | joins hstage =>
    obtain ⟨hello, more, rfl, hmet⟩ := h.met (.inr (.inl hstage))
    exact ⟨h.isServer_eq, h.own_eq, .establishes rfl rfl,
      ⟨hello, more ++ [_], rfl, hmet.peer_eq, hmet.version_eq⟩, hdealt _ rfl,
      fun _ ↦ h.unfailed hopen⟩

theorem hears (h : m.OnCourse server own [] heard dealings) (msg : Message) :
    (m.onMessage msg).2.OnCourse server own (m.onMessage msg).1 (heard ++ [msg]) dealings := by
  cases hrole : m.role with
  | server checker => exact h.serves hrole msg
  | client prover => exact h.attends hrole msg

theorem placed (h : m.OnCourse server own (.reserve :: pending) heard dealings) (nonce : Nonce) :
    dealings = [] ∧ (m.admitted nonce).2.OnCourse server own (m.admitted nonce).1 heard
      [.place (.ok ())] := by
  obtain ⟨-, hstage, hrole⟩ := h.next.of_reserve
  obtain ⟨-, hopen⟩ := h.next.of_ask (.inl rfl)
  obtain ⟨hello, more, rfl, hmet⟩ := h.met (.inl hstage)
  refine ⟨h.dealings_eq_nil hopen (.inr (.inr hstage)), ?_⟩
  rw [admitted, if_pos ⟨hrole, hstage⟩]
  exact ⟨h.isServer_eq, h.own_eq, .tells (.hears (.inr (.inl rfl))),
    ⟨hello, more, rfl, hmet.peer_eq, hmet.version_eq⟩, .place rfl hrole,
    fun _ ↦ h.unfailed hopen⟩

theorem registered (h : m.OnCourse server own (.register :: pending) heard dealings)
    (peer : Identity) (version : Version) (id : SessionId) :
    (m.registered id).2.OnCourse server own (m.registered id).1 heard
      [.place (.ok ()), .session peer version (.ok id)] := by
  obtain ⟨-, hstage, hrole⟩ := h.next.of_register
  obtain ⟨-, hopen⟩ := h.next.of_ask (.inr rfl)
  obtain ⟨hello, more, rfl, hmet⟩ := h.met (.inr (.inl hstage))
  rw [Machine.registered, if_pos ⟨hrole, hstage⟩]
  exact ⟨h.isServer_eq, h.own_eq, .tells (.establishes rfl rfl),
    ⟨hello, more, rfl, hmet.peer_eq, hmet.version_eq⟩, .session rfl hrole rfl,
    fun _ ↦ h.unfailed hopen⟩

end OnCourse

end Machine

/-! ## A record that goes on -/

namespace Record

/-- The handshake fails with what its machine is closing for, unless it was overtaken. -/
def Concludes (r : Record) (why : Failure) : Prop :=
  ∃ first, r.first = some first ∧
    why = if r.overtaken then .timeout r.conduct.budget.millis else first

/-- How far the handshake is. -/
def Stands (r : Record) (server : Bool) (own : Hello) : Prop :=
  match r.conduct.phase with
  | .acting pending | .sending _ pending =>
    r.conduct.machine.OnCourse server own pending r.heard r.dealings ∧ r.overtaken = false
  | .farewell _ _ why | .shutting why => r.conduct.machine.stage = .closing ∧ r.Concludes why
  | .ended (.ok outcome) => r.conduct.machine.stage = .established ∧
    r.conduct.link.binding = some outcome.session ∧
    r.conduct.machine.session = some outcome.session ∧
    ∃ h more, r.heard = .hello h :: more ∧ outcome.peer = h.identity ∧
      own.version.negotiate h.version = some outcome.version
  | .ended (.error why) =>
    r.conduct.machine.stage = .closed ∧ r.shut = true ∧ r.Concludes why

/-- What every move keeps. -/
structure Sound (r : Record) (server : Bool) (own : Hello) (hosting : Bool) (budget : Duration) :
    Prop where
  hosting_eq : r.conduct.hosting = hosting
  budget_eq : r.conduct.budget = budget
  first_eq : r.first = r.conduct.machine.failure
  orderly : Orderly r.dealings
  hosted : r.dealings ≠ [] → hosting = true
  stands : r.Stands server own

variable {r : Record} {server : Bool} {own : Hello} {hosting : Bool} {budget : Duration}
  {o : Offer} {c' : Conduct} {effect : Effect} {pending : List Action}

/-- A move in which nothing is heard, asked or shut, and which nothing overtakes. -/
theorem meets_of_quiet (hstep : r.conduct.step o = some (c', effect))
    (hquiet : r.conduct.hears? o = none ∧ r.conduct.overtakes o = false)
    (hdealing : effect.dealing? o = none) (hshut : effect ≠ .shut) :
    r.meets o =
      ⟨c', r.heard, r.dealings, r.first.or c'.machine.failure, r.overtaken, r.shut⟩ := by
  simp [meets, hstep, hquiet, hdealing, hshut]

theorem quiet_of_acting {a : Action} (hphase : r.conduct.phase = .acting (a :: pending)) :
    r.conduct.hears? o = none ∧ r.conduct.overtakes o = false := by
  simp [Conduct.hears?, Conduct.overtakes, hphase]

theorem quiet_of_receive {arrival : Link.Arrival} {link : Link}
    (hphase : r.conduct.phase = .acting [])
    (hreceive : r.conduct.link.receive o.read = (arrival, link))
    (hnothing : ∀ m, arrival ≠ .frame (some m)) :
    r.conduct.hears? o = none ∧ r.conduct.overtakes o = false := by
  refine ⟨?_, by simp [Conduct.overtakes, hphase]⟩
  cases arrival with
  | frame m? =>
    cases m? with
    | none => simp [Conduct.hears?, hphase, hreceive]
    | some m => exact absurd rfl (hnothing m)
  | _ => simp [Conduct.hears?, hphase, hreceive]

theorem quiet_of_sending {t : Frame.Transmission} (hphase : r.conduct.phase = .sending t pending)
    (hgoes : t.advance o.write o.flush ≠ .blocked) :
    r.conduct.hears? o = none ∧ r.conduct.overtakes o = false := by
  simp [Conduct.hears?, Conduct.overtakes, hphase, hgoes]

theorem quiet_of_farewell {t : Frame.Transmission} {until_ : Instant} {why : Failure}
    (hphase : r.conduct.phase = .farewell t until_ why) :
    r.conduct.hears? o = none ∧ r.conduct.overtakes o = false := by
  simp [Conduct.hears?, Conduct.overtakes, hphase]

theorem meets_of_dealing {a : Action} {d : Dealing}
    (hphase : r.conduct.phase = .acting (a :: pending))
    (hstep : r.conduct.step o = some (c', effect)) (hdealing : effect.dealing? o = some d) :
    r.meets o = ⟨c', r.heard, r.dealings ++ [d], r.first.or c'.machine.failure, r.overtaken,
      r.shut⟩ := by
  have hshut : effect ≠ .shut := by
    rintro rfl
    nomatch hdealing
  simp [meets, hstep, quiet_of_acting hphase, hdealing, hshut]

theorem Sound.moves (h : r.Sound server own hosting budget) {r' : Record}
    (hhosting : r'.conduct.hosting = r.conduct.hosting)
    (hbudget : r'.conduct.budget = r.conduct.budget)
    (hfirst : r'.first = r.first.or r'.conduct.machine.failure)
    (hfailure : ∀ why, r.conduct.machine.failure = some why →
      r'.conduct.machine.failure = some why)
    (horderly : Orderly r'.dealings) (hhosted : r'.dealings ≠ [] → hosting = true)
    (hstands : r'.Stands server own) : r'.Sound server own hosting budget where
  hosting_eq := hhosting.trans h.hosting_eq
  budget_eq := hbudget.trans h.budget_eq
  first_eq := by
    rw [hfirst, h.first_eq]
    cases hcause : r.conduct.machine.failure with
    | none => rfl
    | some why => exact (hfailure why hcause).symm
  orderly := horderly
  hosted := hhosted
  stands := hstands

/-- Until it closes, a handshake is on its course and not overtaken. -/
theorem Sound.onCourse (h : r.Sound server own hosting budget)
    (hphase : r.conduct.phase = .acting pending ∨ ∃ t, r.conduct.phase = .sending t pending) :
    r.conduct.machine.OnCourse server own pending r.heard r.dealings ∧ r.overtaken = false := by
  have hstands := h.stands
  unfold Stands at hstands
  rcases hphase with hphase | ⟨t, hphase⟩ <;> rwa [hphase] at hstands

/-- A move in which only messages go out and bytes come in. -/
theorem Sound.goesOn (h : r.Sound server own hosting budget)
    (hcourse : r.conduct.machine.OnCourse server own pending r.heard r.dealings)
    (hover : r.overtaken = false) (link : Link) {phase : Phase}
    (hphase : phase = .acting pending ∨ ∃ t, phase = .sending t pending) :
    Record.Sound ⟨{ r.conduct with link, phase }, r.heard, r.dealings,
      r.first.or r.conduct.machine.failure, r.overtaken, r.shut⟩ server own hosting budget := by
  refine h.moves rfl rfl rfl (fun _ ↦ id) h.orderly h.hosted ?_
  rcases hphase with rfl | ⟨t, rfl⟩
  · exact ⟨hcourse, hover⟩
  · exact ⟨hcourse, hover⟩

/-- An open machine reacts. -/
theorem Sound.reacts (h : r.Sound server own hosting budget)
    (hcourse : r.conduct.machine.OnCourse server own pending r.heard r.dealings)
    (hopen : r.conduct.machine.stage.terminal = false) (hover : r.overtaken = false) (link : Link)
    {reaction : Machine.Reaction} {heard : List Message} {dealings : List Dealing}
    (hreacts : reaction.2.OnCourse server own reaction.1 heard dealings)
    (hhosted : dealings ≠ [] → hosting = true) :
    Record.Sound ⟨Conduct.react { r.conduct with link } [] reaction, heard, dealings,
      r.first.or reaction.2.failure, r.overtaken, r.shut⟩ server own hosting budget := by
  refine h.moves rfl rfl rfl (fun why hwhy ↦ ?_) hreacts.dealt.orderly hhosted ⟨hreacts, hover⟩
  exact nomatch (hcourse.unfailed hopen).symm.trans hwhy

/-- A message that cannot be sent makes an open machine close, and a closing one go on. -/
theorem Sound.sendFailed (h : r.Sound server own hosting budget)
    (hcourse : r.conduct.machine.OnCourse server own pending r.heard r.dealings)
    (hover : r.overtaken = false) (link : Link) (why : Failure) :
    Record.Sound ⟨Conduct.sendFailed { r.conduct with link } pending why, r.heard, r.dealings,
      r.first.or (Conduct.sendFailed { r.conduct with link } pending why).machine.failure,
      r.overtaken, r.shut⟩ server own hosting budget := by
  unfold Conduct.sendFailed
  split
  · exact h.goesOn hcourse hover link (.inl rfl)
  · rename_i hopen
    have hopen' := Bool.not_eq_true _ ▸ hopen
    exact h.reacts hcourse hopen' hover link
      (hcourse.closes (Machine.closes_abort hopen' why) r.heard h.orderly) h.hosted

/-- The budget is used up. An open machine closes for that; a closing one is overtaken. -/
theorem Sound.expires (h : r.Sound server own hosting budget) (hwaits : r.conduct.Waits o)
    (hdue : r.conduct.deadline ≤ o.now) (hexpires : r.conduct.Expires o.now c') :
    Record.Sound ⟨c', r.heard, r.dealings, r.first.or c'.machine.failure,
      r.overtaken || r.conduct.overtakes o, r.shut⟩ server own hosting budget := by
  obtain ⟨pending, ⟨hcourse, hover⟩, hlate⟩ : ∃ pending,
      (r.conduct.machine.OnCourse server own pending r.heard r.dealings ∧ r.overtaken = false) ∧
      r.conduct.overtakes o = r.conduct.machine.stage.terminal := by
    cases hwaits with
    | toHear hphase =>
      -- A machine that waits to hear is open, so nothing is overtaken.
      have hcourse := h.onCourse (.inl hphase)
      refine ⟨[], hcourse, ?_⟩
      rw [hcourse.1.next.open_of_nil, Conduct.overtakes, hphase]
    | toSend hphase hblocked =>
      refine ⟨_, h.onCourse (.inr ⟨_, hphase⟩), ?_⟩
      simp [Conduct.overtakes, hphase, hblocked, hdue]
  obtain ⟨hstage, hfailure, first, hfirst, hwhy⟩ :=
    hcourse.fails (.timeout r.conduct.budget.millis)
  have hkept : r.first.or (r.conduct.machine.fail (.timeout r.conduct.budget.millis)).2.failure =
      some first := by
    rw [h.first_eq, hfirst]
    cases hcause : r.conduct.machine.failure with
    | none => rfl
    | some why => exact (hfailure why hcause).symm.trans hfirst
  rw [hover, hlate, Bool.false_or]
  cases hexpires with
  | begins | silent =>
    exact h.moves rfl rfl rfl hfailure h.orderly h.hosted ⟨hstage, first, hkept, hwhy⟩

/-- A closing handshake shuts its stream, whatever becomes of its farewell. -/
theorem Sound.parts (h : r.Sound server own hosting budget) {why : Failure}
    (hphase : r.conduct.phase = .shutting why ∨
      ∃ t until_, r.conduct.phase = .farewell t until_ why)
    (link : Link) {phase : Phase}
    (hphase' : phase = .shutting why ∨ ∃ t until_, phase = .farewell t until_ why) :
    Record.Sound ⟨{ r.conduct with link, phase }, r.heard, r.dealings,
      r.first.or r.conduct.machine.failure, r.overtaken, r.shut⟩ server own hosting budget := by
  have hstands : r.conduct.machine.stage = .closing ∧ r.Concludes why := by
    have hstands := h.stands
    unfold Stands at hstands
    rcases hphase with hphase | ⟨t, until_, hphase⟩ <;> rwa [hphase] at hstands
  obtain ⟨hstage, first, hfirst, hwhy⟩ := hstands
  have hkept : r.first.or r.conduct.machine.failure = some first := by rw [hfirst, Option.some_or]
  refine h.moves rfl rfl rfl (fun _ ↦ id) h.orderly h.hosted ?_
  rcases hphase' with rfl | ⟨t, until_, rfl⟩
  · exact ⟨hstage, first, hkept, hwhy⟩
  · exact ⟨hstage, first, hkept, hwhy⟩

theorem outcome?_of_met {m : Machine} {h : Hello} {id : SessionId} (hmet : m.Met h)
    (hsession : m.session = some id) : ∃ v, m.own.version.negotiate h.version = some v ∧
      m.outcome? = some ⟨id, h.identity, v⟩ := by
  obtain ⟨v, hversion, hv⟩ := hmet.version_eq
  exact ⟨v, hv, by simp [Machine.outcome?, hsession, hmet.peer_eq, hversion]⟩

theorem Sound.tells (h : r.Sound server own hosting budget) {m : Message}
    (hphase : r.conduct.phase = .acting (.send m :: pending))
    (hsends : r.conduct.Sends m pending c') :
    Record.Sound ⟨c', r.heard, r.dealings, r.first.or c'.machine.failure, r.overtaken, r.shut⟩
      server own hosting budget := by
  obtain ⟨hcourse, hover⟩ := h.onCourse (.inl hphase)
  cases hsends with
  | begins => exact h.goesOn hcourse.tells hover _ (.inr ⟨_, rfl⟩)
  | refuses => exact h.sendFailed hcourse.tells hover _ _

theorem Sound.refused (h : r.Sound server own hosting budget) {a : Action}
    (hphase : r.conduct.phase = .acting (a :: pending)) (ha : a = .reserve ∨ a = .register)
    (why : Failure) {dealings : List Dealing} (horderly : Orderly dealings)
    (hhosted : dealings ≠ [] → hosting = true) :
    Record.Sound ⟨r.conduct.react pending (r.conduct.machine.fail why), r.heard, dealings,
      r.first.or (r.conduct.machine.fail why).2.failure, r.overtaken, r.shut⟩
      server own hosting budget := by
  obtain ⟨hcourse, hover⟩ := h.onCourse (.inl hphase)
  obtain ⟨rfl, hopen⟩ := hcourse.next.of_ask ha
  exact h.reacts hcourse hopen hover r.conduct.link
    (hcourse.closes (Machine.closes_fail hopen why) r.heard horderly) hhosted

theorem Sound.establishes (h : r.Sound server own hosting budget) {id : SessionId}
    (hphase : r.conduct.phase = .acting (.establish id :: pending))
    {result : Except Failure Outcome}
    (hresult : result = match r.conduct.machine.outcome? with
      | some outcome => .ok outcome
      | none => .error Conduct.noPeer) :
    Record.Sound ⟨{ r.conduct with link := r.conduct.link.bind id, phase := .ended result },
      r.heard, r.dealings, r.first.or r.conduct.machine.failure, r.overtaken, r.shut⟩
      server own hosting budget := by
  obtain ⟨hcourse, hover⟩ := h.onCourse (.inl hphase)
  obtain ⟨hstage, hsession⟩ := hcourse.next.of_establish
  obtain ⟨hello, more, hheard, hmet⟩ := hcourse.met (.inr (.inr hstage))
  obtain ⟨v, hv, houtcome⟩ := outcome?_of_met hmet hsession
  rw [houtcome] at hresult
  subst hresult
  rw [hcourse.own_eq] at hv
  exact h.moves rfl rfl rfl (fun _ hwhy ↦ hwhy) h.orderly h.hosted
    ⟨hstage, rfl, hsession, hello, more, hheard, rfl, hv⟩

theorem Sound.placed (h : r.Sound server own hosting budget)
    (hphase : r.conduct.phase = .acting (.reserve :: pending)) (hhosting : hosting = true)
    (nonce : Nonce) :
    Record.Sound ⟨r.conduct.react pending (r.conduct.machine.admitted nonce), r.heard,
      r.dealings ++ [.place (.ok ())], r.first.or (r.conduct.machine.admitted nonce).2.failure,
      r.overtaken, r.shut⟩ server own hosting budget := by
  obtain ⟨hcourse, hover⟩ := h.onCourse (.inl hphase)
  obtain ⟨rfl, hopen⟩ := hcourse.next.of_ask (.inl rfl)
  obtain ⟨hnothing, hplaced⟩ := hcourse.placed nonce
  rw [hnothing]
  exact h.reacts hcourse hopen hover _ hplaced fun _ ↦ hhosting

theorem Sound.registered (h : r.Sound server own hosting budget)
    (hphase : r.conduct.phase = .acting (.register :: pending)) (hhosting : hosting = true)
    (peer : Identity) (version : Version) (id : SessionId) :
    Record.Sound ⟨r.conduct.react pending (r.conduct.machine.registered id), r.heard,
      r.dealings ++ [.session peer version (.ok id)],
      r.first.or (r.conduct.machine.registered id).2.failure, r.overtaken, r.shut⟩
      server own hosting budget := by
  obtain ⟨hcourse, hover⟩ := h.onCourse (.inl hphase)
  obtain ⟨rfl, hopen⟩ := hcourse.next.of_ask (.inr rfl)
  obtain ⟨-, hstage, hrole⟩ := hcourse.next.of_register
  rw [hcourse.dealings_eq_place hstage hrole]
  exact h.reacts hcourse hopen hover _ (hcourse.registered peer version id) fun _ ↦ hhosting

private theorem Sound.orderly_of_asked (h : r.Sound server own hosting budget)
    (hphase : r.conduct.phase = .acting (.reserve :: pending)) (answer : Except Failure Unit) :
    Orderly (r.dealings ++ [.place answer]) := by
  obtain ⟨hnothing, -⟩ := (h.onCourse (.inl hphase)).1.placed .zero
  rw [hnothing]
  exact .place

private theorem Sound.orderly_of_named (h : r.Sound server own hosting budget)
    (hphase : r.conduct.phase = .acting (.register :: pending)) (peer : Identity)
    (version : Version) (answer : Except Failure SessionId) :
    Orderly (r.dealings ++ [.session peer version answer]) := by
  obtain ⟨hcourse, -⟩ := h.onCourse (.inl hphase)
  obtain ⟨-, hstage, hrole⟩ := hcourse.next.of_register
  rw [hcourse.dealings_eq_place hstage hrole]
  exact .session

theorem Sound.closes (h : r.Sound server own hosting budget) {why : Failure}
    (hphase : r.conduct.phase = .acting (.close why :: pending)) :
    Record.Sound ⟨{ r.conduct with phase := .shutting why }, r.heard, r.dealings,
      r.first.or r.conduct.machine.failure, r.overtaken, r.shut⟩ server own hosting budget := by
  obtain ⟨hcourse, hover⟩ := h.onCourse (.inl hphase)
  obtain ⟨hstage, hfailure⟩ := hcourse.next.of_close
  have hkept : r.first.or r.conduct.machine.failure = some why := by
    rw [h.first_eq, hfailure, Option.some_or]
  rw [hover]
  exact h.moves rfl rfl rfl (fun _ ↦ id) h.orderly h.hosted ⟨hstage, why, hkept, rfl⟩

theorem Sound.hears (h : r.Sound server own hosting budget) {said : Message} {link : Link}
    (hphase : r.conduct.phase = .acting [])
    (hreceive : r.conduct.link.receive o.read = (.frame (some said), link))
    (hstep : r.conduct.step o =
      some (Conduct.react { r.conduct with link } [] (r.conduct.machine.onMessage said), .none)) :
    (r.meets o).Sound server own hosting budget := by
  obtain ⟨hcourse, hover⟩ := h.onCourse (.inl hphase)
  have hmeets : r.meets o = ⟨Conduct.react { r.conduct with link } []
      (r.conduct.machine.onMessage said), r.heard ++ [said], r.dealings,
      r.first.or (r.conduct.machine.onMessage said).2.failure, r.overtaken, r.shut⟩ := by
    simp [Record.meets, hstep, Conduct.hears?, Conduct.overtakes, hphase, hreceive,
      Effect.dealing?, Conduct.react]
  rw [hmeets]
  exact h.reacts hcourse hcourse.next.open_of_nil hover link (hcourse.hears said) h.hosted

theorem Sound.shuts (h : r.Sound server own hosting budget) {why : Failure}
    (hphase : r.conduct.phase = .shutting why)
    (hstep : r.conduct.step o = some ({ r.conduct with
      machine := r.conduct.machine.finish, phase := .ended (.error why) }, .shut)) :
    (r.meets o).Sound server own hosting budget := by
  obtain ⟨-, first, hfirst, hwhy⟩ : r.conduct.machine.stage = .closing ∧ r.Concludes why := by
    have hstands := h.stands
    rwa [Stands, hphase] at hstands
  have hkept : r.first.or r.conduct.machine.failure = some first := by rw [hfirst, Option.some_or]
  have hmeets : r.meets o = ⟨{ r.conduct with
      machine := r.conduct.machine.finish, phase := .ended (.error why) }, r.heard, r.dealings,
      r.first.or r.conduct.machine.failure, r.overtaken, true⟩ := by
    simp [Record.meets, hstep, Conduct.hears?, Conduct.overtakes, hphase, Effect.dealing?,
      Machine.finish]
  rw [hmeets]
  exact h.moves rfl rfl rfl (fun _ ↦ id) h.orderly h.hosted ⟨rfl, rfl, first, hkept, hwhy⟩

/-- Only a message that is on its way is overtaken, and nothing is heard while waiting. -/
theorem meets_of_waits (hwaits : r.conduct.Waits o)
    (hstep : r.conduct.step o = some (c', .none)) :
    r.meets o = ⟨c', r.heard, r.dealings, r.first.or c'.machine.failure,
      r.overtaken || r.conduct.overtakes o, r.shut⟩ := by
  have hheard : r.conduct.hears? o = none := by
    cases hwaits with
    | toHear hphase hreceive => simp [Conduct.hears?, hphase, hreceive]
    | toSend hphase => simp [Conduct.hears?, hphase]
  simp [Record.meets, hstep, hheard, Effect.dealing?]

/-- **One move keeps the record sound.** -/
theorem Sound.meets (h : r.Sound server own hosting budget) (o : Offer) :
    (r.meets o).Sound server own hosting budget := by
  cases hstep : r.conduct.step o with
  | none => rwa [Record.meets, hstep]
  | some next =>
    obtain ⟨c', effect⟩ := next
    -- Most moves leave what was seen as it is. For the others the new record is written out.
    have hquiet := meets_of_quiet hstep
    cases Conduct.does_step hstep with
    | tells hphase hsends =>
      rw [hquiet (quiet_of_acting hphase) rfl nofun]
      exact h.tells hphase hsends
    | placed hphase hhosting hreserve =>
      rw [meets_of_dealing hphase hstep rfl, hreserve]
      exact h.placed hphase (h.hosting_eq ▸ hhosting) o.nonce
    | refused hphase hhosting hreserve =>
      rw [meets_of_dealing hphase hstep rfl]
      exact h.refused hphase (.inl rfl) _ (h.orderly_of_asked hphase _)
        fun _ ↦ h.hosting_eq ▸ hhosting
    | registered hphase hhosting _ _ hregister =>
      rw [meets_of_dealing hphase hstep rfl, hregister]
      exact h.registered hphase (h.hosting_eq ▸ hhosting) _ _ _
    | rejected hphase hhosting _ _ hregister =>
      rw [meets_of_dealing hphase hstep rfl]
      exact h.refused hphase (.inr rfl) _ (h.orderly_of_named hphase _ _ _)
        fun _ ↦ h.hosting_eq ▸ hhosting
    | unasked hphase ha =>
      rw [hquiet (quiet_of_acting hphase) rfl nofun]
      exact h.refused hphase ha _ h.orderly h.hosted
    | establishes hphase hresult =>
      rw [hquiet (quiet_of_acting hphase) rfl nofun]
      exact h.establishes hphase hresult
    | closes hphase =>
      rw [hquiet (quiet_of_acting hphase) rfl nofun]
      exact h.closes hphase
    | reads hphase hreceive | skips hphase hreceive =>
      obtain ⟨hcourse, hover⟩ := h.onCourse (.inl hphase)
      rw [hquiet (quiet_of_receive hphase hreceive nofun) rfl nofun]
      exact h.goesOn hcourse hover _ (.inl hphase)
    | hears hphase hreceive => exact h.hears hphase hreceive hstep
    | @deafened why link hphase hreceive =>
      obtain ⟨hcourse, hover⟩ := h.onCourse (.inl hphase)
      have hopen := hcourse.next.open_of_nil
      rw [hquiet (quiet_of_receive hphase hreceive nofun) rfl nofun]
      exact h.reacts hcourse hopen hover link
        (hcourse.closes (Machine.closes_fail hopen why) r.heard h.orderly) h.hosted
    | writes hphase hwrote =>
      obtain ⟨hcourse, hover⟩ := h.onCourse (.inr ⟨_, hphase⟩)
      rw [hquiet (quiet_of_sending hphase (by rw [hwrote]; nofun)) rfl nofun]
      exact h.goesOn hcourse hover _ (.inr ⟨_, rfl⟩)
    | completes hphase hfinished =>
      obtain ⟨hcourse, hover⟩ := h.onCourse (.inr ⟨_, hphase⟩)
      rw [hquiet (quiet_of_sending hphase (by rw [hfinished]; nofun)) rfl nofun]
      exact h.goesOn hcourse hover _ (.inl rfl)
    | breaks hphase hfailed =>
      obtain ⟨hcourse, hover⟩ := h.onCourse (.inr ⟨_, hphase⟩)
      rw [hquiet (quiet_of_sending hphase (by rw [hfailed]; nofun)) rfl nofun]
      exact h.sendFailed hcourse hover r.conduct.link _
    | expires hwaits hdue hexpires =>
      rw [meets_of_waits hwaits hstep]
      exact h.expires hwaits hdue hexpires
    | bids hphase =>
      rw [hquiet (quiet_of_farewell hphase) rfl nofun]
      exact h.parts (.inr ⟨_, _, hphase⟩) _ (.inr ⟨_, _, rfl⟩)
    | parted hphase | abandons hphase =>
      rw [hquiet (quiet_of_farewell hphase) rfl nofun]
      exact h.parts (.inr ⟨_, _, hphase⟩) _ (.inl rfl)
    | shuts hphase => exact h.shuts hphase hstep

theorem Sound.run (h : r.Sound server own hosting budget) (offers : List Offer) :
    (r.run offers).Sound server own hosting budget := by
  induction offers generalizing r with
  | nil => exact h
  | cons o offers ih => exact ih (h.meets o)

/-- A handshake that begins with a fresh machine. -/
def fresh (role : Role) (own : Hello) (link : Link) (hosting : Bool) (budget : Duration)
    (now : Instant) : Record := begin (.start (.fresh role own) link hosting budget now)

theorem sound_fresh (role : Role) (own : Hello) (link : Link) (hosting : Bool) (budget : Duration)
    (now : Instant) :
    (fresh role own link hosting budget now).Sound role.isServer own hosting budget := by
  cases role with
  | client prover =>
    exact ⟨rfl, rfl, rfl, .nothing, nofun, ⟨rfl, rfl, .tells (.hears (.inl rfl)), rfl,
      .nothing (.inl rfl), fun _ ↦ rfl⟩, rfl⟩
  | server checker =>
    exact ⟨rfl, rfl, rfl, .nothing, nofun, ⟨rfl, rfl, .hears (.inl rfl), rfl,
      .nothing (.inr (.inl rfl)), fun _ ↦ rfl⟩, rfl⟩

end Record

end DeskLink.Handshake
