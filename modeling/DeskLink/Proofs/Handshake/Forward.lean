import DeskLink.Proofs.Handshake.Encounter
import DeskLink.Proofs.Handshake.Record

/-!
# A machine only goes forward

The owner of a machine is expected to start it, to hand on what arrives and to answer what it asks
for. Nothing in the machine relies on that: whatever it is told, in whatever order, it only moves
on to later stages, keeps what it has learned, and closes once and for one reason.

What a call can come to is said once, in `Turns`: the machine goes on without a word about closing,
or it closes and says so last, or the connection is declared gone, or it was over already and rests.
What lets it go on without overwriting anything is `Timely`: each thing that a call would set is
still unset at the stages where the call sets it.
-/

namespace DeskLink.Handshake

/-! ## The order of the stages -/

/-- The place of a stage in the course of a connection. -/
def Stage.rank : Stage → Nat
  | .connected => 0 | .helloExchanged => 1 | .authPending => 2
  | .established => 3 | .closing => 4 | .closed => 5

instance : LE Stage := ⟨fun earlier later ↦ earlier.rank ≤ later.rank⟩

instance : DecidableLE Stage := fun earlier later ↦
  inferInstanceAs (Decidable (earlier.rank ≤ later.rank))

private theorem Stage.le_rfl {s : Stage} : s ≤ s := Nat.le_refl s.rank

theorem Stage.le_trans {a b c : Stage} (hab : a ≤ b) (hbc : b ≤ c) : a ≤ c :=
  Nat.le_trans (m := b.rank) hab hbc

private theorem Stage.le_closing {s : Stage} (h : s.terminal = false) : s ≤ .closing := by
  revert h
  cases s <;> decide

private theorem Stage.le_closed (s : Stage) : s ≤ .closed := by cases s <;> decide

/-- The failure for which an action closes the connection. -/
def Action.cause? : Action → Option Failure
  | .close why => some why
  | _ => none

/-! ## Calls -/

/-- What a machine can be told. -/
inductive Call where
  | start
  | message (msg : Message)
  | admitted (nonce : Nonce)
  | registered (id : SessionId)
  | strike (blow : Blow)

namespace Machine

/-- What the machine does when it is told this. -/
def call (m : Machine) : Call → Reaction
  | .start => m.start
  | .message msg => m.onMessage msg
  | .admitted nonce => m.admitted nonce
  | .registered id => m.registered id
  | .strike blow => m.struck blow

/-- What the machine does when it is told one thing after another. -/
def calls (m : Machine) (told : List Call) : Reaction := m.through call told

/-- Nothing is set that a call at this stage would set. -/
structure Timely (m : Machine) : Prop where
  peer : m.stage = .connected → m.peer = none
  version : m.stage = .connected → m.version = none
  session : m.stage ≠ .established → m.stage.terminal = false → m.session = none
  failure : m.stage.terminal = false → m.failure = none
  closing : m.stage = .closing → ∃ why, m.failure = some why

/-- The second machine is as far as the first or further, and knows all that the first knows. -/
structure Grows (m m' : Machine) : Prop where
  stage_le : m.stage ≤ m'.stage
  peer : ∀ peer, m.peer = some peer → m'.peer = some peer
  version : ∀ version, m.version = some version → m'.version = some version
  session : ∀ id, m.session = some id → m'.session = some id
  failure : ∀ why, m.failure = some why → m'.failure = some why

/-- What a call can come to. -/
inductive Turns (m : Machine) : Reaction → Prop where
  | goesOn {actions : List Action} {m' : Machine} (hopen : m.stage.terminal = false)
      (hopen' : m'.stage.terminal = false) (hsilent : actions.filterMap Action.cause? = [])
      (hgrows : m.Grows m') (htimely : m'.Timely) : Turns m (actions, m')
  | closes {said : List Action} {why : Failure} {m' : Machine} (hopen : m.stage.terminal = false)
      (hsaid : said.filterMap Action.cause? = []) (hstage : m'.stage = .closing)
      (hfailure : m'.failure = some why) (hgrows : m.Grows m') :
      Turns m (said ++ [.close why], m')
  /-- The connection is declared gone. -/
  | ends : Turns m ([], m.finish)
  | rests (hterminal : m.stage.terminal = true) : Turns m ([], m)

variable {m m' : Machine} {r : Reaction}

private theorem timely_fresh (role : Role) (own : Hello) : (fresh role own).Timely where
  peer _ := rfl
  version _ := rfl
  session _ _ := rfl
  failure _ := rfl
  closing := nofun

theorem Grows.refl (m : Machine) : m.Grows m :=
  ⟨Stage.le_rfl, fun _ ↦ id, fun _ ↦ id, fun _ ↦ id, fun _ ↦ id⟩

theorem Grows.trans {m₁ m₂ m₃ : Machine} (h : m₁.Grows m₂) (h' : m₂.Grows m₃) : m₁.Grows m₃ where
  stage_le := Stage.le_trans h.stage_le h'.stage_le
  peer _ hpeer := h'.peer _ (h.peer _ hpeer)
  version _ hversion := h'.version _ (h.version _ hversion)
  session _ hsession := h'.session _ (h.session _ hsession)
  failure _ hfailure := h'.failure _ (h.failure _ hfailure)

private theorem grows_finish (m : Machine) : m.Grows m.finish :=
  ⟨m.stage.le_closed, fun _ ↦ id, fun _ ↦ id, fun _ ↦ id, fun _ ↦ id⟩

/-! ## What a call can come to -/

theorem Timely.grows_of_open (h : m.Timely) (hopen : m.stage.terminal = false)
    (hstage : m.stage ≤ m'.stage) (hpeer : m.stage ≠ .connected → m'.peer = m.peer)
    (hversion : m.stage ≠ .connected → m'.version = m.version)
    (hsession : m.stage = .established → m'.session = m.session) : m.Grows m' where
  stage_le := hstage
  peer peer hknown := by
    rw [hpeer fun hconnected ↦ ?_, hknown]
    nomatch (h.peer hconnected).symm.trans hknown
  version version hknown := by
    rw [hversion fun hconnected ↦ ?_, hknown]
    nomatch (h.version hconnected).symm.trans hknown
  session id hknown := by
    by_cases hestablished : m.stage = .established
    · rw [hsession hestablished, hknown]
    · nomatch (h.session hestablished hopen).symm.trans hknown
  failure why hknown := by nomatch (h.failure hopen).symm.trans hknown

/-- The machine goes on, and sets only what belongs to the stage that it leaves. -/
structure Advances (m : Machine) (r : Reaction) : Prop where
  unestablished : m.stage ≠ .established
  open_before : m.stage.terminal = false
  open_after : r.2.stage.terminal = false
  stage_le : m.stage ≤ r.2.stage
  left : r.2.stage ≠ .connected
  silent : r.1.filterMap Action.cause? = []
  peer_eq : m.stage ≠ .connected → r.2.peer = m.peer
  version_eq : m.stage ≠ .connected → r.2.version = m.version
  session_eq : r.2.stage ≠ .established → r.2.session = m.session
  failure_eq : r.2.failure = m.failure

theorem Timely.advances (h : m.Timely) (hadvances : m.Advances r) : m.Turns r :=
  have hgrows : m.Grows r.2 := h.grows_of_open hadvances.open_before hadvances.stage_le
    hadvances.peer_eq hadvances.version_eq fun hstage ↦ absurd hstage hadvances.unestablished
  .goesOn hadvances.open_before hadvances.open_after hadvances.silent hgrows
    { peer := fun hstage ↦ absurd hstage hadvances.left
      version := fun hstage ↦ absurd hstage hadvances.left
      session := fun hstage _ ↦ (hadvances.session_eq hstage).trans
        (h.session hadvances.unestablished hadvances.open_before)
      failure := fun _ ↦ hadvances.failure_eq.trans (h.failure hadvances.open_before)
      closing := fun hstage ↦ nomatch hstage ▸ hadvances.open_after }

theorem Timely.idles (h : m.Timely) : m.Turns m.idle := by
  cases hterminal : m.stage.terminal with
  | true => exact .rests hterminal
  | false => exact .goesOn hterminal hterminal rfl (.refl m) h

/-- What is left to do for a machine that is closing ends with saying why. -/
theorem Next.of_stage_closing {actions : List Action} (h : m.Next actions)
    (hstage : m.stage = .closing) : ∃ said why, actions = said ++ [.close why] ∧
      said.filterMap Action.cause? = [] ∧ m.failure = some why := by
  induction h with
  | @tells said rest _ ih =>
    obtain ⟨before, why, rfl, hsilent, hfailure⟩ := ih
    exact ⟨.send said :: before, why, rfl, hsilent, hfailure⟩
  | hears hstage' => rcases hstage' with h | h | ⟨h, -⟩ <;> nomatch h.symm.trans hstage
  | reserves hstage' | registers hstage' | establishes hstage' => nomatch hstage'.symm.trans hstage
  | closes _ hfailure => exact ⟨[], _, rfl, rfl, hfailure⟩

theorem Timely.closes (h : m.Timely) (hopen : m.stage.terminal = false) (hcloses : m.Closes r)
    (hstops : m.Stops r) : m.Turns r := by
  obtain ⟨actions, m'⟩ := r
  have hstage : m'.stage = .closing := hcloses.stage_eq
  have hgrows : m.Grows m' := h.grows_of_open hopen (hstage ▸ Stage.le_closing hopen)
    hstops.peer_eq (fun _ ↦ hstops.version_eq) fun _ ↦ hstops.session_eq
  obtain ⟨said, why, rfl, hsaid, hfailure⟩ := hcloses.next.of_stage_closing hstage
  exact .closes hopen hsaid hstage hfailure hgrows

private theorem Timely.turns_fail (h : m.Timely) (why : Failure) : m.Turns (m.fail why) := by
  cases hterminal : m.stage.terminal with
  | true =>
    rw [fail, if_pos hterminal]
    exact .rests hterminal
  | false => exact h.closes hterminal (closes_fail hterminal why) (stops_fail m why)

private theorem Timely.turns_abort (h : m.Timely) (why : Failure) : m.Turns (m.abort why) := by
  cases hterminal : m.stage.terminal with
  | true =>
    rw [abort, if_pos hterminal]
    exact .rests hterminal
  | false => exact h.closes hterminal (closes_abort hterminal why) (stops_abort m why)

private theorem Timely.turns_start (h : m.Timely) : m.Turns m.start := by
  rw [start]
  split
  · rename_i hfresh
    have hopen : m.stage.terminal = false := by rw [hfresh.1]; rfl
    exact .goesOn hopen hopen rfl (.refl m) h
  · exact h.idles

private theorem Timely.turns_admitted (h : m.Timely) (nonce : Nonce) :
    m.Turns (m.admitted nonce) := by
  rw [admitted]
  split
  · rename_i hplace
    apply h.advances
    constructor <;> simp [hplace.2, Stage.terminal, Action.cause?]
    decide
  · exact h.idles

private theorem Timely.turns_registered (h : m.Timely) (id : SessionId) :
    m.Turns (m.registered id) := by
  rw [registered]
  split
  · rename_i hproved
    apply h.advances
    constructor <;> simp [hproved.2, Stage.terminal, Action.cause?]
    decide
  · exact h.idles

private theorem Timely.turns_serves {checker : Checker} {msg : Message} (h : m.Timely)
    (hopen : m.stage.terminal = false) (hserves : m.Serves checker msg r)
    (hcloses : r.2.stage.terminal = true → m.Closes r) : m.Turns r := by
  cases hserves with
  | stops hstops => exact h.closes hopen (hcloses hstops.terminal) hstops
  | greets hstage | verifies hstage =>
    apply h.advances
    constructor <;> simp [hstage, Stage.terminal, Action.cause?]
    decide

private theorem Timely.turns_attends {prover : Prover} {msg : Message} (h : m.Timely)
    (hopen : m.stage.terminal = false) (hattends : m.Attends prover msg r)
    (hcloses : r.2.stage.terminal = true → m.Closes r) : m.Turns r := by
  cases hattends with
  | stops hstops => exact h.closes hopen (hcloses hstops.terminal) hstops
  | greets hstage | answers hstage | joins hstage =>
    apply h.advances
    constructor <;> simp [hstage, Stage.terminal, Action.cause?]
    decide

private theorem Timely.turns_onMessage (h : m.Timely) (msg : Message) :
    m.Turns (m.onMessage msg) := by
  cases hterminal : m.stage.terminal with
  | true =>
    rw [onMessage_of_terminal hterminal]
    exact .rests hterminal
  | false =>
    have hcloses := closes_onMessage hterminal msg
    cases hrole : m.role with
    | client prover => exact h.turns_attends hterminal (attends_onMessage hrole msg) hcloses
    | server checker => exact h.turns_serves hterminal (serves_onMessage hrole msg) hcloses

/-- Every call comes to one of the four. -/
theorem Timely.turns_call (h : m.Timely) (call : Call) : m.Turns (m.call call) := by
  cases call with
  | start => exact h.turns_start
  | message msg => exact h.turns_onMessage msg
  | admitted nonce => exact h.turns_admitted nonce
  | registered id => exact h.turns_registered id
  | strike blow =>
    cases blow with
    | fail why => exact h.turns_fail why
    | abort why => exact h.turns_abort why
    | finish => exact .ends

/-! ## What a call leaves behind -/

theorem Turns.grows (h : m.Turns r) : m.Grows r.2 := by
  cases h with
  | goesOn _ _ _ hgrows => exact hgrows
  | closes _ _ _ _ hgrows => exact hgrows
  | ends => exact m.grows_finish
  | rests => exact .refl m

private theorem Turns.timely (h : m.Timely) (hturns : m.Turns r) : r.2.Timely := by
  cases hturns with
  | goesOn _ _ _ _ htimely => exact htimely
  | closes _ _ hstage hfailure =>
    exact {
      peer := fun hnew ↦ nomatch hnew.symm.trans hstage
      version := fun hnew ↦ nomatch hnew.symm.trans hstage
      session := fun _ hopen ↦ nomatch hstage ▸ hopen
      failure := fun hopen ↦ nomatch hstage ▸ hopen
      closing := fun _ ↦ ⟨_, hfailure⟩ }
  | ends => exact ⟨nofun, nofun, nofun, nofun, nofun⟩
  | rests => exact h

private theorem Turns.causes (h : m.Timely) (hturns : m.Turns r) :
    m.failure.toList ++ r.1.filterMap Action.cause? = r.2.failure.toList := by
  cases hturns with
  | goesOn hopen hopen' hsilent _ htimely =>
    rw [h.failure hopen, htimely.failure hopen', hsilent]
    rfl
  | closes hopen hsaid _ hfailure =>
    rw [h.failure hopen, hfailure, List.filterMap_append, hsaid]
    rfl
  | ends | rests => exact List.append_nil _

/-- Nothing comes after closing: the actions before it say nothing of it, so it is the last. -/
theorem Turns.close_last (h : m.Turns r) {said more : List Action} {why : Failure}
    (hclose : r.1 = said ++ .close why :: more) : more = [] := by
  have hmem : Action.close why ∈ r.1 := by simp [hclose]
  cases h with
  | goesOn _ _ hsilent => nomatch List.filterMap_eq_nil_iff.mp hsilent _ hmem
  | @closes before cause _ _ hbefore =>
    rcases List.eq_nil_or_concat more with rfl | ⟨init, last, rfl⟩
    · rfl
    · have hsplit : before ++ [.close cause] = (said ++ .close why :: init) ++ [last] := by
        simpa using hclose
      obtain ⟨rfl, -⟩ := List.append_inj' hsplit rfl
      nomatch List.filterMap_eq_nil_iff.mp hbefore (.close why) (by simp)
  | ends | rests => nomatch hmem

private theorem call_of_terminal (h : m.stage.terminal = true) (call : Call) :
    m.call call = ([], match call with
      | .strike .finish => { m with stage := .closed }
      | _ => m) := by
  have hopen : m.stage ≠ .connected ∧ m.stage ≠ .helloExchanged ∧ m.stage ≠ .authPending := by
    refine ⟨?_, ?_, ?_⟩ <;> intro hstage <;> nomatch hstage ▸ h
  cases call with
  | start => exact if_neg fun hstart ↦ hopen.1 hstart.1
  | message msg => exact onMessage_of_terminal h msg
  | admitted nonce => exact if_neg fun hadmitted ↦ hopen.2.1 hadmitted.2
  | registered id => exact if_neg fun hregistered ↦ hopen.2.2 hregistered.2
  | strike blow =>
    cases blow with
    | fail why => exact if_pos h
    | abort why => exact if_pos h
    | finish => rfl

/-! ## Calls in any order -/

theorem Timely.calls (h : m.Timely) (told : List Call) : (m.calls told).2.Timely ∧
    m.Grows (m.calls told).2 ∧ m.failure.toList ++ (m.calls told).1.filterMap Action.cause? =
      (m.calls told).2.failure.toList := by
  induction told generalizing m with
  | nil => exact ⟨h, .refl m, List.append_nil _⟩
  | cons call told ih =>
    have hturns := h.turns_call call
    obtain ⟨htimely, hgrows, hcauses⟩ := ih (hturns.timely h)
    have hstep : m.calls (call :: told) =
        ((m.call call).1 ++ ((m.call call).2.calls told).1, ((m.call call).2.calls told).2) := rfl
    rw [hstep]
    refine ⟨htimely, hturns.grows.trans hgrows, ?_⟩
    rw [List.filterMap_append, ← List.append_assoc, hturns.causes h, hcauses]

/-- **A machine only goes forward.** Whatever it is told, in whatever order, it goes back to no
earlier stage and keeps the other side, the version, the session and the failure that it knows. It
has closed for exactly the failure that it remembers, so at most once, and remembers one while
closing. Closing is the last action of its reaction; and once it is closing or closed, it does
nothing and changes nothing, except that `finish` closes it. -/
theorem only_forward (role : Role) (own : Hello) (before after : List Call) :
    let run := (fresh role own).calls before
    let later := run.2.calls after
    run.2.Grows later.2 ∧
    run.1.filterMap Action.cause? = run.2.failure.toList ∧
    (run.2.stage = .closing → ∃ why, run.2.failure = some why) ∧
    ∀ call, (∀ said why more, (run.2.call call).1 = said ++ .close why :: more → more = []) ∧
      (run.2.stage.terminal = true → run.2.call call = ([], match call with
        | .strike .finish => { run.2 with stage := .closed }
        | _ => run.2)) := by
  intro run later
  obtain ⟨htimely, -, hcauses⟩ := (timely_fresh role own).calls before
  refine ⟨(htimely.calls after).2.1, hcauses, htimely.closing, fun call ↦ ⟨fun _ _ _ ↦ ?_, ?_⟩⟩
  · exact (htimely.turns_call call).close_last
  · exact fun hterminal ↦ call_of_terminal hterminal call

/-- A server's session is established when a second hello arrives; what it is told then, the second
hello again and another failure among it, changes no more than that it is closed in the end. -/
theorem only_forward_greeted_twice :
    let own : Hello := ⟨⟨1, 0⟩, ⟨⟨List.replicate 16 7, rfl⟩, "server", 1⟩⟩
    let peer : Hello := ⟨⟨1, 2⟩, ⟨⟨List.replicate 16 8, rfl⟩, "client", 1⟩⟩
    let id : SessionId := ⟨⟨List.replicate 16 9, rfl⟩⟩
    let greeted := Call.message (.hello peer)
    let why := Failure.malformed "unexpected Hello while Established"
    let run := (fresh (.server ⟨fun _ _ _ ↦ true⟩) own).calls
      [.start, greeted, .admitted .zero, .registered id, greeted]
    let later := run.2.calls
      [.strike (.fail .capacityExceeded), greeted, .strike .finish, .registered id]
    run.1.filterMap Action.cause? = [why] ∧ run.2.stage = .closing ∧
      run.2.call (.strike (.fail .capacityExceeded)) = ([], run.2) ∧ later.1 = [] ∧
      later.2.stage = .closed ∧ later.2.peer = some peer.identity ∧
      later.2.version = some ⟨1, 0⟩ ∧ later.2.session = some id ∧ later.2.failure = some why := by
  intro own peer id greeted why run later
  obtain ⟨hgrows, hcauses, -, hcall⟩ := only_forward (.server ⟨fun _ _ _ ↦ true⟩) own
    [.start, greeted, .admitted .zero, .registered id, greeted]
    [.strike (.fail .capacityExceeded), greeted, .strike .finish, .registered id]
  have hclosing : run.2.stage = .closing := by decide +kernel
  refine ⟨hcauses.trans (by decide +kernel), hclosing, (hcall _).2 (by rw [hclosing]; rfl),
    by decide +kernel, by decide +kernel, hgrows.peer _ (by decide +kernel),
    hgrows.version _ (by decide +kernel), hgrows.session _ (by decide +kernel),
    hgrows.failure _ (by decide +kernel)⟩

end Machine

end DeskLink.Handshake
