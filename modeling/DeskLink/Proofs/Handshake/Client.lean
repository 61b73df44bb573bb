import DeskLink.Proofs.Handshake.Reaction

/-!
# What a client accepts

Of all lists of messages that a server may send, a client accepts one kind: a hello of its own
major version, a challenge, and a verdict that accepts and names the session. The other side need
not be honest, so what the client gives away of its proof matters as much: at most one answer, and
none to a peer of another major version.

As for the server, a message either leads one stage further or ends the machine (`Attends`), and
`Reception` lists the beginnings that matter.
-/

namespace DeskLink.Handshake

namespace Machine

/-- The reactions to messages, one after another. -/
def listen (m : Machine) (heard : List Message) : Reaction := m.through onMessage heard

theorem listen_cons (m : Machine) (first : Message) (rest : List Message) :
    m.listen (first :: rest) = ((m.onMessage first).1 ++ ((m.onMessage first).2.listen rest).1,
      ((m.onMessage first).2.listen rest).2) := rfl

private theorem listen_of_terminal {m : Machine} (h : m.stage.terminal = true)
    (heard : List Message) : m.listen heard = ([], m) :=
  through_of_absorbing fun msg _ ↦ onMessage_of_terminal h msg

section Client

variable (prover : Prover) (own : Hello)

/-- A client that has seen a hello of its major version. -/
def greeted (h : Hello) : Machine :=
  ⟨.client prover, own, .helloExchanged, some h.identity, some (own.common h), none, none, none⟩

/-- A client that has answered the challenge. -/
def answered (h : Hello) : Machine := { greeted prover own h with stage := .authPending }

def joined (h : Hello) (id : SessionId) : Machine :=
  { greeted prover own h with stage := .established, session := some id }

def reply (nonce : Nonce) : Auth := .response (prover.respond nonce own.identity)

private theorem greets_or_stops (msg : Message) :
    (∃ h, msg = .hello h ∧ own.version.major = h.version.major ∧
      (fresh (.client prover) own).onMessage msg = ([], greeted prover own h)) ∨
    (fresh (.client prover) own).Stops ((fresh (.client prover) own).onMessage msg) := by
  have hattends := attends_onMessage (m := fresh (.client prover) own) rfl msg
  generalize (fresh (.client prover) own).onMessage msg = x at hattends
  cases hattends with
  | stops h => exact .inr h
  | @greets h v _ hv =>
    obtain ⟨hmajor, rfl⟩ := Version.negotiate_eq_some_iff.mp hv
    exact .inl ⟨h, rfl, hmajor, rfl⟩
  | answers hstage => nomatch hstage
  | joins hstage => nomatch hstage

private theorem answers_or_stops (h : Hello) (msg : Message) :
    (∃ nonce, msg = .auth (.challenge nonce) ∧ (greeted prover own h).onMessage msg
      = ([.send (.auth (reply prover own nonce))], answered prover own h)) ∨
    (greeted prover own h).Stops ((greeted prover own h).onMessage msg) := by
  have hattends := attends_onMessage (m := greeted prover own h) rfl msg
  generalize (greeted prover own h).onMessage msg = x at hattends
  cases hattends with
  | stops h => exact .inr h
  | greets hstage => nomatch hstage
  | answers => exact .inl ⟨_, rfl, rfl⟩
  | joins hstage => nomatch hstage

private theorem joins_or_stops (h : Hello) (msg : Message) :
    (∃ id, msg = .authResult ⟨true, some id⟩ ∧
      (answered prover own h).onMessage msg = ([.establish id], joined prover own h id)) ∨
    (answered prover own h).Stops ((answered prover own h).onMessage msg) := by
  have hattends := attends_onMessage (m := answered prover own h) rfl msg
  generalize (answered prover own h).onMessage msg = x at hattends
  cases hattends with
  | stops h => exact .inr h
  | greets hstage => nomatch hstage
  | answers hstage => nomatch hstage
  | joins => exact .inl ⟨_, rfl, rfl⟩

private theorem stops_of_joined (h : Hello) (id : SessionId) (msg : Message) :
    (joined prover own h id).Stops ((joined prover own h id).onMessage msg) := by
  have hattends := attends_onMessage (m := joined prover own h id) rfl msg
  generalize (joined prover own h id).onMessage msg = x at hattends
  cases hattends with
  | stops h => exact h
  | greets hstage => nomatch hstage
  | answers hstage => nomatch hstage
  | joins hstage => nomatch hstage

/-- The client is over, and gave nothing of its proof away. -/
def Mute (x : Reaction) : Prop := x.2.stage.terminal = true ∧ x.1.filterMap Action.auth? = []

variable {prover own} in
theorem Stops.mute {m : Machine} {x : Reaction} (h : m.Stops x) : Mute x := by
  refine ⟨h.terminal, List.filterMap_eq_nil_iff.mpr fun a ha ↦ ?_⟩
  have hparting := h.parting a ha
  unfold Action.auth?
  split
  · exact hparting.elim
  · rfl

/-- The runs of a client. -/
inductive Reception : List Message → Reaction → Prop where
  | silent : Reception [] ([], fresh (.client prover) own)
  | refused {first : Message} {rest : List Message} {x : Reaction} (hmute : Mute x) :
      Reception (first :: rest) x
  | greeted {h : Hello} (hmajor : own.version.major = h.version.major) :
      Reception [.hello h] ([], greeted prover own h)
  | answered {h : Hello} {nonce : Nonce} (hmajor : own.version.major = h.version.major) :
      Reception [.hello h, .auth (.challenge nonce)]
        ([.send (.auth (reply prover own nonce))], answered prover own h)
  | failed {h : Hello} {nonce : Nonce} {rest : List Message} {x : Reaction}
      (hmajor : own.version.major = h.version.major) (hmute : Mute x) :
      Reception (.hello h :: .auth (.challenge nonce) :: rest)
        (.send (.auth (reply prover own nonce)) :: x.1, x.2)
  | joined {h : Hello} {nonce : Nonce} {id : SessionId}
      (hmajor : own.version.major = h.version.major) :
      Reception [.hello h, .auth (.challenge nonce), .authResult ⟨true, some id⟩]
        ([.send (.auth (reply prover own nonce)), .establish id], joined prover own h id)

variable {prover own}

/-- A client that stops has nothing more to say, whatever else it hears. -/
theorem listen_of_stops {m : Machine} {first : Message} (h : m.Stops (m.onMessage first))
    (rest : List Message) : m.listen (first :: rest) = m.onMessage first := by
  rw [listen_cons, listen_of_terminal h.terminal, List.append_nil]

private theorem reception_joined {h : Hello} {nonce : Nonce} {id : SessionId}
    (hmajor : own.version.major = h.version.major) (rest : List Message) :
    Reception prover own
      (.hello h :: .auth (.challenge nonce) :: .authResult ⟨true, some id⟩ :: rest)
      (.send (.auth (reply prover own nonce)) :: .establish id
        :: ((joined prover own h id).listen rest).1, ((joined prover own h id).listen rest).2) := by
  cases rest with
  | nil => exact .joined hmajor
  | cons fourth rest =>
    -- Any message after the verdict is too many.
    have hstops := stops_of_joined prover own h id fourth
    obtain ⟨hterminal, hauth⟩ := hstops.mute
    rw [listen_of_stops hstops]
    exact .failed (x := (.establish id :: _, _)) hmajor ⟨hterminal, hauth⟩

private theorem reception_answered {h : Hello} {nonce : Nonce}
    (hmajor : own.version.major = h.version.major) (rest : List Message) :
    Reception prover own (.hello h :: .auth (.challenge nonce) :: rest)
      (.send (.auth (reply prover own nonce)) :: ((answered prover own h).listen rest).1,
        ((answered prover own h).listen rest).2) := by
  cases rest with
  | nil => exact .answered hmajor
  | cons third rest =>
    rcases joins_or_stops prover own h third with ⟨id, rfl, hjoins⟩ | hstops
    · rw [listen_cons, hjoins]
      exact reception_joined hmajor rest
    · rw [listen_of_stops hstops]
      exact .failed hmajor hstops.mute

/-- Every run of a fresh client is one of these. -/
theorem reception_listen (heard : List Message) :
    Reception prover own heard ((fresh (.client prover) own).listen heard) := by
  cases heard with
  | nil => exact .silent
  | cons first rest =>
    rcases greets_or_stops prover own first with ⟨h, rfl, hmajor, hgreets⟩ | hstops
    · rw [listen_cons, hgreets, List.nil_append]
      cases rest with
      | nil => exact .greeted hmajor
      | cons second rest =>
        rcases answers_or_stops prover own h second with ⟨nonce, rfl, hanswers⟩ | hstops
        · rw [listen_cons, hanswers]
          exact reception_answered hmajor rest
        · rw [listen_of_stops hstops]
          exact .refused hstops.mute
    · rw [listen_of_stops hstops]
      exact .refused hstops.mute

private theorem listen_accepted {h : Hello} (hmajor : own.version.major = h.version.major)
    (nonce : Nonce) (id : SessionId) :
    (fresh (.client prover) own).listen
        [.hello h, .auth (.challenge nonce), .authResult ⟨true, some id⟩]
      = ([.send (.auth (reply prover own nonce)), .establish id], joined prover own h id) := by
  have hv : own.version.negotiate h.version = some (own.common h) :=
    Version.negotiate_eq_some_iff.mpr ⟨hmajor, rfl⟩
  simp [listen, through_cons, fresh, onMessage, clientStep, compareVersions, reply, joined, greeted,
    Stage.terminal, hv]

namespace Reception

variable {heard : List Message} {x : Reaction}

theorem of_established (hreception : Reception prover own heard x)
    (hstage : x.2.stage = .established) : ∃ h nonce id,
      heard = [.hello h, .auth (.challenge nonce), .authResult ⟨true, some id⟩] ∧
      own.version.major = h.version.major ∧ x.2.session = some id := by
  cases hreception with
  | silent => nomatch hstage
  | greeted => nomatch hstage
  | answered => nomatch hstage
  | refused hmute => exact absurd hstage (Stage.ne_established_of_terminal hmute.1)
  | failed _ hmute => exact absurd hstage (Stage.ne_established_of_terminal hmute.1)
  | joined hmajor => exact ⟨_, _, _, rfl, hmajor, rfl⟩

/-- What a client has given away of its proof: nothing, or the answer to the first challenge. -/
theorem auths_eq (hreception : Reception prover own heard x) :
    x.1.filterMap Action.auth? = [] ∨ ∃ h nonce rest,
      heard = .hello h :: .auth (.challenge nonce) :: rest ∧
      own.version.major = h.version.major ∧
      x.1.filterMap Action.auth? = [reply prover own nonce] := by
  cases hreception with
  | silent => exact .inl rfl
  | greeted => exact .inl rfl
  | refused hmute => exact .inl hmute.2
  | answered hmajor => exact .inr ⟨_, _, _, rfl, hmajor, rfl⟩
  | failed hmajor hmute =>
    exact .inr ⟨_, _, _, rfl, hmajor, congrArg (reply prover own _ :: ·) hmute.2⟩
  | joined hmajor => exact .inr ⟨_, _, _, rfl, hmajor, rfl⟩

end Reception

/-- **What a client accepts.** It ends established under a name exactly on a hello of its major
version, a challenge and a verdict that accepts and gives that name. Of its proof it gives away at
most one answer, the one to the first challenge, and that only after a hello of its major version.
-/
theorem client_established_iff (prover : Prover) (own : Hello) (heard : List Message) :
    let begun := (fresh (.client prover) own).start
    let run := begun.2.listen heard
    (∀ id, (run.2.stage = .established ∧ run.2.session = some id) ↔ ∃ h nonce,
      heard = [.hello h, .auth (.challenge nonce), .authResult ⟨true, some id⟩] ∧
      own.version.major = h.version.major) ∧
    (run.2.stage = .established → run.2.session.isSome) ∧
    ((begun.1 ++ run.1).filterMap Action.auth? = [] ∨ ∃ h nonce rest,
      heard = .hello h :: .auth (.challenge nonce) :: rest ∧
      own.version.major = h.version.major ∧
      (begun.1 ++ run.1).filterMap Action.auth?
        = [.response (prover.respond nonce own.identity)]) := by
  intro begun run
  have hreception : Reception prover own heard run := reception_listen heard
  refine ⟨fun id ↦ ⟨?_, ?_⟩, ?_, hreception.auths_eq⟩
  · rintro ⟨hstage, hid⟩
    obtain ⟨h, nonce, id', hheard, hmajor, hid'⟩ := hreception.of_established hstage
    obtain rfl : id' = id := Option.some.inj (hid'.symm.trans hid)
    exact ⟨h, nonce, hheard, hmajor⟩
  · rintro ⟨h, nonce, rfl, hmajor⟩
    have hrun : run = _ := listen_accepted hmajor nonce id
    rw [hrun]
    exact ⟨rfl, rfl⟩
  · intro hstage
    obtain ⟨_, _, _, _, _, hid⟩ := hreception.of_established hstage
    rw [hid]
    rfl

end Client

end Machine

end DeskLink.Handshake
