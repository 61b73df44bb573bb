import DeskLink.Proofs.Handshake.Reaction
import DeskLink.Session.Outlet

/-!
# What a server accepts

A server is a recogniser: of all lists of messages that the other side may send it accepts one
kind, a hello of its own major version followed by the right answer to its challenge, provided that
the registry grants a place and then the registration. Nothing longer is accepted either: a message
too many ends what was established.

From a stage that has not been left, a message either leads one stage further or ends the machine
(`Serves`), and an ended machine reacts to nothing more. So only finitely many beginnings of a list
matter, whatever its length; `Course` lists them.
-/

namespace DeskLink.Handshake

namespace Machine

/-! ## A server and its registry -/

/-- What comes of an action when a registry is asked at once for whatever the action asks for. -/
def answer (r : Registrar) (m : Machine) : Action → Reaction
  | .reserve =>
    match r.reserve with
    | .ok _ => m.admitted r.nonce
    | .error why => m.fail why
  | .register =>
    match m.peer, m.version with
    | some peer, some version =>
      match r.register peer version with
      | .ok id => m.registered id
      | .error why => m.fail why
    | _, _ => m.fail Conduct.noRegistration
  | _ => m.idle

/-- The reaction to a message, with everything that comes of it. -/
def hear (m : Machine) (heard : Message × Registrar) : Reaction :=
  let (actions, m) := m.onMessage heard.1
  let (more, m) := m.through (answer heard.2) actions
  (actions ++ more, m)

theorem hear_eq (m : Machine) (heard : Message × Registrar) :
    m.hear heard = ((m.onMessage heard.1).1
        ++ ((m.onMessage heard.1).2.through (answer heard.2) (m.onMessage heard.1).1).1,
      ((m.onMessage heard.1).2.through (answer heard.2) (m.onMessage heard.1).1).2) := rfl

/-- The reactions to messages, each with the registry as it stands when the message is there. -/
def converse (m : Machine) (heard : List (Message × Registrar)) : Reaction := m.through hear heard

theorem act_eq_react_answer {c : Conduct} {o : Offer} {a : Action} (pending : List Action)
    (hhosting : c.hosting = true) (ha : a = .reserve ∨ a = .register) :
    (c.act o a pending).1
      = c.react pending (c.machine.answer ⟨o.reserve, o.nonce, o.register⟩ a) := by
  rcases ha with rfl | rfl
  · simp only [Conduct.act, answer, hhosting, if_true]
    cases o.reserve <;> rfl
  · simp only [Conduct.act, answer, hhosting]
    cases c.machine.peer with
    | none => rfl
    | some peer =>
      cases c.machine.version with
      | none => rfl
      | some version =>
        simp only
        cases o.register peer version <;> rfl

/-! ### What a server asks for -/

private theorem answer_of_parting {r : Registrar} {m : Machine} {own : Hello} {a : Action}
    (ha : a.Parting own) : answer r m a = ([], m) := by
  cases a with
  | reserve => exact ha.elim
  | register => exact ha.elim
  | _ => rfl

private theorem through_answer_of_stops {r : Registrar} {m : Machine} {x : Reaction}
    (h : m.Stops x) : x.2.through (answer r) x.1 = ([], x.2) :=
  through_of_absorbing fun a ha ↦ answer_of_parting (h.parting a ha)

/-- Nothing more comes of this: the machine is over, and neither challenged nor registered. -/
def Over (x : Reaction) : Prop :=
  x.2.stage.terminal = true ∧ .register ∉ x.1 ∧ ∀ nonce, .send (.auth (.challenge nonce)) ∉ x.1

theorem Stops.over {m : Machine} {x : Reaction} (h : m.Stops x) : Over x :=
  ⟨h.terminal, fun hmem ↦ h.parting _ hmem, fun _ hmem ↦ h.parting _ hmem⟩

theorem hear_of_stops {m : Machine} {heard : Message × Registrar}
    (h : m.Stops (m.onMessage heard.1)) : m.hear heard = m.onMessage heard.1 := by
  rw [hear_eq, through_answer_of_stops h, List.append_nil]

private theorem hear_of_terminal {m : Machine} (h : m.stage.terminal = true)
    (heard : Message × Registrar) : m.hear heard = ([], m) := by
  simp [hear, onMessage_of_terminal h]

theorem converse_of_terminal {m : Machine} (h : m.stage.terminal = true)
    (heard : List (Message × Registrar)) : m.converse heard = ([], m) :=
  through_of_absorbing fun x _ ↦ hear_of_terminal h x

/-! ## The server -/

section Server

variable (checker : Checker) (own : Hello)

/-- A message opens a connection: a hello of the own major version that finds a place. -/
structure Opens (heard : Message × Registrar) (h : Hello) : Prop where
  hello : heard.1 = .hello h
  major : own.version.major = h.version.major
  placed : heard.2.reserve = .ok ()

/-- A message proves who sent it: the right answer of the node of this hello to this challenge. -/
def Proves (heard : Message × Registrar) (h : Hello) (nonce : Nonce) : Prop :=
  ∃ credential, heard.1 = .auth (.response credential) ∧
    checker.verify nonce credential h.identity = true

/-- What a server does when a connection is opened. -/
def opening (nonce : Nonce) : List Action :=
  [.send (.hello own), .reserve, .send (.auth (.challenge nonce))]

/-- A server that has challenged the node that said this hello. -/
def challenged (h : Hello) (nonce : Nonce) : Machine :=
  ⟨.server checker, own, .authPending, some h.identity, some (own.common h), some nonce, none, none⟩

/-- A server that has registered the node that said this hello. -/
def settled (h : Hello) (id : SessionId) : Machine :=
  ⟨.server checker, own, .established, some h.identity, some (own.common h), none, some id, none⟩

theorem hear_opens {heard : Message × Registrar} {h : Hello} (hopens : Opens own heard h) :
    (fresh (.server checker) own).hear heard
      = (opening own heard.2.nonce, challenged checker own h heard.2.nonce) := by
  obtain ⟨hhello, hmajor, hplaced⟩ := hopens
  have hv : own.version.negotiate h.version = some (own.common h) :=
    Version.negotiate_eq_some_iff.mpr ⟨hmajor, rfl⟩
  simp [hear, fresh, onMessage, serverStep, compareVersions, through_cons, answer, admitted, idle,
    opening, challenged, Stage.terminal, Role.isServer, hhello, hv, hplaced]

private theorem opens_or_over (heard : Message × Registrar) :
    (∃ h, Opens own heard h) ∨ Over ((fresh (.server checker) own).hear heard) := by
  obtain ⟨msg, r⟩ := heard
  have hserves := serves_onMessage (m := fresh (.server checker) own) rfl msg
  generalize hx : (fresh (.server checker) own).onMessage msg = x at hserves
  cases hserves with
  | stops h =>
    subst hx
    rw [hear_of_stops h]
    exact .inr h.over
  | verifies hstage => nomatch hstage
  | @greets h v _ hv =>
    cases hplaced : r.reserve with
    | ok _ => exact .inl ⟨h, rfl, (Version.negotiate_eq_some_iff.mp hv).1, hplaced⟩
    | error why =>
      right
      have hfail := stops_fail { fresh (.server checker) own with
        peer := some h.identity, version := some v, stage := .helloExchanged } why
      rw [hear_eq, hx]
      simpa [Over, through_cons, answer, idle, hplaced] using hfail.over

theorem hear_proves {h : Hello} {nonce : Nonce} {id : SessionId} {heard : Message × Registrar}
    (hproves : Proves checker heard h nonce)
    (hid : heard.2.register h.identity (own.common h) = .ok id) :
    (challenged checker own h nonce).hear heard
      = ([.register, .send (.authResult ⟨true, some id⟩), .establish id],
        settled checker own h id) := by
  obtain ⟨credential, hresponse, hverify⟩ := hproves
  simp [hear, challenged, onMessage, serverStep, judge, through_cons, answer, registered, settled,
    Stage.terminal, Role.isServer, hresponse, hverify, hid]

/-- A challenged server that does not go on is over, and asked for at most one registration, and
that only for a proof. -/
structure Fails (h : Hello) (nonce : Nonce) (heard : Message × Registrar) (x : Reaction) :
    Prop where
  terminal : x.2.stage.terminal = true
  count_register : x.1.count .register ≤ 1
  proves : .register ∈ x.1 → Proves checker heard h nonce
  not_challenge : ∀ n, .send (.auth (.challenge n)) ∉ x.1

private theorem proves_or_fails (h : Hello) (nonce : Nonce) (heard : Message × Registrar) :
    (Proves checker heard h nonce ∧
        ∃ id, heard.2.register h.identity (own.common h) = .ok id) ∨
      Fails checker h nonce heard ((challenged checker own h nonce).hear heard) := by
  obtain ⟨msg, r⟩ := heard
  have hserves := serves_onMessage (m := challenged checker own h nonce) rfl msg
  generalize hx : (challenged checker own h nonce).onMessage msg = x at hserves
  cases hserves with
  | stops hstops =>
    subst hx
    obtain ⟨hterminal, hregister, hchallenge⟩ := hstops.over
    right
    rw [hear_of_stops hstops]
    exact ⟨hterminal, by simp [List.count_eq_zero.mpr hregister], fun hmem ↦ absurd hmem hregister,
      hchallenge⟩
  | greets hstage => nomatch hstage
  | @verifies credential n peer _ hnonce hpeer hverify =>
    obtain rfl : nonce = n := Option.some.inj hnonce
    obtain rfl : h.identity = peer := Option.some.inj hpeer
    have hproves : Proves checker (.auth (.response credential), r) h nonce :=
      ⟨credential, rfl, hverify⟩
    cases hid : r.register h.identity (own.common h) with
    | ok id => exact .inl ⟨hproves, id, rfl⟩
    | error why =>
      right
      obtain ⟨hterminal, hregister, hchallenge⟩ :=
        (stops_fail { challenged checker own h nonce with nonce := none } why).over
      rw [hear_eq, hx]
      constructor
      · simpa [through_cons, answer, challenged, hid] using hterminal
      · simpa [through_cons, answer, challenged, hid] using List.count_eq_zero.mpr hregister
      · exact fun _ ↦ hproves
      · simpa [through_cons, answer, challenged, hid] using hchallenge

private theorem over_hear_settled (h : Hello) (id : SessionId) (heard : Message × Registrar) :
    Over ((settled checker own h id).hear heard) := by
  obtain ⟨msg, r⟩ := heard
  have hserves := serves_onMessage (m := settled checker own h id) rfl msg
  generalize hx : (settled checker own h id).onMessage msg = x at hserves
  cases hserves with
  | stops hstops =>
    subst hx
    rw [hear_of_stops hstops]
    exact hstops.over
  | greets hstage => nomatch hstage
  | verifies hstage => nomatch hstage

theorem converse_cons (m : Machine) (first : Message × Registrar)
    (rest : List (Message × Registrar)) :
    m.converse (first :: rest) = ((m.hear first).1 ++ ((m.hear first).2.converse rest).1,
      ((m.hear first).2.converse rest).2) := rfl

/-- The runs of a server. -/
inductive Course : List (Message × Registrar) → Reaction → Prop where
  | silent : Course [] ([], fresh (.server checker) own)
  | refused {first : Message × Registrar} {rest : List (Message × Registrar)} {x : Reaction}
      (hover : Over x) : Course (first :: rest) x
  | waiting {first : Message × Registrar} {h : Hello} (hopens : Opens own first h) :
      Course [first] (opening own first.2.nonce, challenged checker own h first.2.nonce)
  | failed {first second : Message × Registrar} {rest : List (Message × Registrar)} {h : Hello}
      {x : Reaction} (hopens : Opens own first h)
      (hfails : Fails checker h first.2.nonce second x) :
      Course (first :: second :: rest) (opening own first.2.nonce ++ x.1, x.2)
  | established {first second : Message × Registrar} {h : Hello} {id : SessionId}
      (hopens : Opens own first h) (hproves : Proves checker second h first.2.nonce)
      (hid : second.2.register h.identity (own.common h) = .ok id) :
      Course [first, second] (opening own first.2.nonce
        ++ [.register, .send (.authResult ⟨true, some id⟩), .establish id],
        settled checker own h id)

variable {checker own}

private theorem course_settled {first second : Message × Registrar} {h : Hello} {id : SessionId}
    (hopens : Opens own first h) (hproves : Proves checker second h first.2.nonce)
    (hid : second.2.register h.identity (own.common h) = .ok id)
    (rest : List (Message × Registrar)) :
    Course checker own (first :: second :: rest)
      ((fresh (.server checker) own).converse (first :: second :: rest)) := by
  rw [converse_cons, hear_opens checker own hopens, converse_cons,
    hear_proves checker own hproves hid]
  cases rest with
  | nil => exact .established hopens hproves hid
  | cons third rest =>
    -- The registration stays in the record, but the third message undoes what it led to.
    obtain ⟨hterminal, hregister, hchallenge⟩ := over_hear_settled checker own h id third
    rw [converse_cons, converse_of_terminal hterminal]
    refine .failed hopens ⟨hterminal, ?_, fun _ ↦ hproves, ?_⟩
    · simpa using List.count_eq_zero.mpr hregister
    · simpa using hchallenge

/-- Every run of a fresh server is one of these. -/
theorem course_converse (heard : List (Message × Registrar)) :
    Course checker own heard ((fresh (.server checker) own).converse heard) := by
  cases heard with
  | nil => exact .silent
  | cons first rest =>
    rcases opens_or_over checker own first with ⟨h, hopens⟩ | hover
    · cases rest with
      | nil =>
        rw [converse_cons, hear_opens checker own hopens]
        exact .waiting hopens
      | cons second rest =>
        rcases proves_or_fails checker own h first.2.nonce second with ⟨hproves, id, hid⟩ | hfails
        · exact course_settled hopens hproves hid rest
        · rw [converse_cons, hear_opens checker own hopens, converse_cons,
            converse_of_terminal hfails.terminal, List.append_nil]
          exact .failed hopens hfails
    · rw [converse_cons, converse_of_terminal hover.1, List.append_nil]
      exact .refused hover

namespace Course

variable {heard : List (Message × Registrar)} {x : Reaction}

theorem of_established (hcourse : Course checker own heard x) (hstage : x.2.stage = .established) :
    ∃ first second h, heard = [first, second] ∧ Opens own first h ∧
      Proves checker second h first.2.nonce ∧
      ∃ id, second.2.register h.identity (own.common h) = .ok id := by
  cases hcourse with
  | silent => nomatch hstage
  | waiting => nomatch hstage
  | refused hover => exact absurd hstage (Stage.ne_established_of_terminal hover.1)
  | failed _ hfails => exact absurd hstage (Stage.ne_established_of_terminal hfails.terminal)
  | established hopens hproves hid => exact ⟨_, _, _, rfl, hopens, hproves, _, hid⟩

theorem of_challenge {nonce : Nonce} (hcourse : Course checker own heard x)
    (hmem : .send (.auth (.challenge nonce)) ∈ x.1) :
    ∃ first rest h, heard = first :: rest ∧ Opens own first h ∧ nonce = first.2.nonce := by
  cases hcourse with
  | silent => nomatch hmem
  | refused hover => exact absurd hmem (hover.2.2 nonce)
  | waiting hopens => exact ⟨_, _, _, rfl, hopens, by simpa [opening] using hmem⟩
  | failed hopens hfails =>
    rcases List.mem_append.mp hmem with hmem | hmem
    · exact ⟨_, _, _, rfl, hopens, by simpa [opening] using hmem⟩
    · exact absurd hmem (hfails.not_challenge nonce)
  | established hopens => exact ⟨_, _, _, rfl, hopens, by simpa [opening] using hmem⟩

theorem count_register (hcourse : Course checker own heard x) : x.1.count .register ≤ 1 := by
  cases hcourse with
  | silent => simp
  | refused hover => simp [List.count_eq_zero.mpr hover.2.1]
  | waiting => simp [opening]
  | failed _ hfails => simpa [opening] using hfails.count_register
  | established => simp [opening]

theorem of_register (hcourse : Course checker own heard x) (hmem : .register ∈ x.1) :
    ∃ first second rest h, heard = first :: second :: rest ∧ Opens own first h ∧
      Proves checker second h first.2.nonce := by
  cases hcourse with
  | silent => nomatch hmem
  | refused hover => exact absurd hmem hover.2.1
  | waiting => simp [opening] at hmem
  | failed hopens hfails =>
    exact ⟨_, _, _, _, rfl, hopens, hfails.proves (by simpa [opening] using hmem)⟩
  | established hopens hproves => exact ⟨_, _, _, _, rfl, hopens, hproves⟩

end Course

/-! ### Who the other side is -/

/-- Once a machine has left its first stage, the other side stays who it is. -/
structure Remembers (m : Machine) (x : Reaction) : Prop where
  role_eq : x.2.role = m.role
  peer_eq : x.2.peer = m.peer
  stage_ne : x.2.stage ≠ .connected

theorem Stops.remembers {m : Machine} {x : Reaction} (h : m.Stops x)
    (hstage : m.stage ≠ .connected) : m.Remembers x where
  role_eq := h.role_eq
  peer_eq := h.peer_eq hstage
  stage_ne := Stage.ne_connected_of_terminal h.terminal

theorem remembers_answer {m : Machine} (hstage : m.stage ≠ .connected) (r : Registrar)
    (a : Action) : m.Remembers (answer r m a) := by
  have hidle : m.Remembers m.idle := ⟨rfl, rfl, hstage⟩
  unfold answer
  split
  · split
    · unfold admitted
      split
      · exact ⟨rfl, rfl, Stage.noConfusion⟩
      · exact hidle
    · exact (stops_fail m _).remembers hstage
  · split
    · split
      · unfold registered
        split
        · exact ⟨rfl, rfl, Stage.noConfusion⟩
        · exact hidle
      · exact (stops_fail m _).remembers hstage
    · exact (stops_fail m _).remembers hstage
  · exact hidle

theorem remembers_through {ι : Type} {react : Machine → ι → Reaction} {m : Machine}
    (hstage : m.stage ≠ .connected) (inputs : List ι)
    (h : ∀ (m' : Machine) (i : ι), m'.role = m.role → m'.stage ≠ .connected →
      m'.Remembers (react m' i)) :
    m.Remembers (m.through react inputs) := by
  induction inputs generalizing m with
  | nil => exact ⟨rfl, rfl, hstage⟩
  | cons i rest ih =>
    obtain ⟨hrole, hpeer, hne⟩ := h m i rfl hstage
    obtain ⟨hrole', hpeer', hne'⟩ := ih hne fun m' j hm' ↦ h m' j (hm'.trans hrole)
    exact ⟨hrole'.trans hrole, hpeer'.trans hpeer, hne'⟩

private theorem remembers_hear {m : Machine} (hrole : m.role = .server checker)
    (hstage : m.stage ≠ .connected) (heard : Message × Registrar) : m.Remembers (m.hear heard) := by
  obtain ⟨msg, r⟩ := heard
  have hmessage : m.Remembers (m.onMessage msg) := by
    have hserves := serves_onMessage hrole msg
    generalize m.onMessage msg = x at hserves
    cases hserves with
    | stops h => exact h.remembers hstage
    | greets hconnected => exact absurd hconnected hstage
    | verifies => exact ⟨rfl, rfl, hstage⟩
  obtain ⟨hrole', hpeer', hne'⟩ := hmessage
  obtain ⟨hrole'', hpeer'', hne''⟩ := remembers_through hne' (m.onMessage msg).1
    fun m' a _ hm' ↦ remembers_answer hm' r a
  exact ⟨hrole''.trans hrole', hpeer''.trans hpeer', hne''⟩

private theorem remembers_converse {m : Machine} (hrole : m.role = .server checker)
    (hstage : m.stage ≠ .connected) (heard : List (Message × Registrar)) :
    m.Remembers (m.converse heard) :=
  remembers_through hstage heard fun _ x hm' hne' ↦ remembers_hear (hm'.trans hrole) hne' x

/-- Whom a message announces. -/
def announced : Message → Option Identity
  | .hello h => some h.identity
  | _ => none

variable (checker own) in
private theorem onMessage_fresh (msg : Message) :
    ((fresh (.server checker) own).onMessage msg).2.role = .server checker ∧
      ((fresh (.server checker) own).onMessage msg).2.stage ≠ .connected ∧
      ((fresh (.server checker) own).onMessage msg).2.peer = announced msg := by
  cases msg with
  | hello h =>
    cases hv : own.version.negotiate h.version <;>
      simp [onMessage, fresh, serverStep, compareVersions, fail, abort, announced,
        Stage.terminal, hv]
  | _ => simp [onMessage, fresh, serverStep, unexpected, fail, abort, announced, Stage.terminal]

/-- The other side is whom the first message announced, for good. -/
theorem peer_converse (heard : List (Message × Registrar)) :
    ((fresh (.server checker) own).converse heard).2.peer
      = heard.head?.bind fun x ↦ announced x.1 := by
  cases heard with
  | nil => rfl
  | cons first rest =>
    obtain ⟨hrole, hne, hpeer⟩ := onMessage_fresh checker own first.1
    have hanswers := remembers_through hne ((fresh (.server checker) own).onMessage first.1).1
      fun m a _ hm ↦ remembers_answer hm first.2 a
    have hrest := remembers_converse (hanswers.role_eq.trans hrole) hanswers.stage_ne rest
    exact (hrest.peer_eq.trans hanswers.peer_eq).trans hpeer

/-- **What a server accepts.** It ends established exactly on a hello of its major version that
finds a place, followed by the right answer and a granted registration. It challenges only after
such a hello, and asks for at most one registration, that only for the right answer of the node of
that hello; and whom it takes the other side to be depends on the first message alone. -/
theorem server_established_iff (checker : Checker) (own : Hello)
    (heard : List (Message × Registrar)) :
    let run := (fresh (.server checker) own).converse heard
    (run.2.stage = .established ↔ ∃ first second h, heard = [first, second] ∧ Opens own first h ∧
      Proves checker second h first.2.nonce ∧
      ∃ id, second.2.register h.identity (own.common h) = .ok id) ∧
    (∀ nonce, .send (.auth (.challenge nonce)) ∈ run.1 →
      ∃ first rest h, heard = first :: rest ∧ Opens own first h ∧ nonce = first.2.nonce) ∧
    run.1.count .register ≤ 1 ∧
    (.register ∈ run.1 → ∃ first second rest h, heard = first :: second :: rest ∧
      Opens own first h ∧ Proves checker second h first.2.nonce) ∧
    run.2.peer = heard.head?.bind fun x ↦ announced x.1 := by
  intro run
  have hcourse : Course checker own heard run := course_converse heard
  refine ⟨⟨hcourse.of_established, ?_⟩, fun _ ↦ hcourse.of_challenge, hcourse.count_register,
    hcourse.of_register, peer_converse heard⟩
  rintro ⟨first, second, h, rfl, hopens, hproves, id, hid⟩
  simp only [run, converse_cons, hear_opens checker own hopens, hear_proves checker own hproves hid]
  rfl

end Server

end Machine

end DeskLink.Handshake
