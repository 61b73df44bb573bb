import DeskLink.Proofs.Handshake.Encounter

/-!
# How a handshake ends

A client and a server that nothing disturbs bring their handshake to an end, and to the same end on
both sides, whatever the order in which messages are delivered and the server is answered.

There is little to choose in that order. The client can be late in reading the hello of the server,
which by then may have been told about its place; and two nodes of different major versions, who
find out each for itself, have reports for each other that neither will look at. `Scene` lists the
situations there are, with the number of turns it took to get there: every turn leads to a scene one
further, and there is none after eight. An end is then read off the scenes in which no one has a
turn.
-/

namespace DeskLink.Handshake

/-! ## What the machines do -/

/-- What a node that said this makes of the version of the other. -/
def mismatch (own peer : Hello) : Failure := .versionMismatch own.version (some peer.version)

/-- A failure as the other side is told of it. -/
def noteOf (code : ReportCode) (why : Failure) : Message := .report ⟨code, why.message⟩

namespace Machine

/-- The machine after it has agreed on a version with a node that said this. -/
def met (m : Machine) (h : Hello) : Machine :=
  { m with peer := some h.identity, version := some (m.own.common h), stage := .helloExchanged }

/-- The machine after it has given up for this reason. -/
def quit (m : Machine) (why : Failure) : Machine :=
  { m with stage := .closing, failure := some why }

/-- The machine after it has given up over the version of a node that said this. -/
def apart (m : Machine) (h : Hello) : Machine :=
  { m with peer := some h.identity }.quit (mismatch m.own h)

/-- The server after it has made this challenge. -/
def awaiting (m : Machine) (nonce : Nonce) : Machine :=
  { m with nonce := some nonce, stage := .authPending }

/-- The server after it has checked the answer to its challenge. -/
def spent (m : Machine) : Machine := { m with nonce := none }

def up (m : Machine) (id : SessionId) : Machine :=
  { m with session := some id, stage := .established }

variable {m : Machine} {h : Hello}

theorem compareVersions_of_eq (hmajor : m.own.version.major = h.version.major)
    (agreed : List Action) : m.compareVersions h agreed = (agreed, m.met h) := by
  have hv := Version.negotiate_eq_some_iff.mpr ⟨hmajor, rfl⟩
  simp only [compareVersions, hv]
  rfl

theorem compareVersions_of_ne (hstage : m.stage = .connected)
    (hmajor : m.own.version.major ≠ h.version.major) (agreed : List Action) :
    m.compareVersions h agreed = ([.send (noteOf .versionMismatch (mismatch m.own h)),
      .close (mismatch m.own h)], m.apart h) := by
  have hv : m.own.version.negotiate h.version = none := by
    cases hv : m.own.version.negotiate h.version with
    | none => rfl
    | some v => exact absurd (Version.negotiate_eq_some_iff.mp hv).1 hmajor
  simp only [compareVersions, hv, fail, hstage]
  rfl

end Machine

/-- A client that has seen nothing. -/
def caller (prover : Prover) (own : Hello) : Machine := .fresh (.client prover) own

/-- A server that has seen nothing. -/
def callee (checker : Checker) (own : Hello) : Machine := .fresh (.server checker) own

section Reactions

variable {prover : Prover} {checker : Checker} {ours theirs : Hello}

theorem caller_meets (h : ours.version.major = theirs.version.major) :
    (caller prover ours).onMessage (.hello theirs) = ([], (caller prover ours).met theirs) :=
  Machine.compareVersions_of_eq h []

private theorem caller_parts (h : ours.version.major ≠ theirs.version.major) :
    (caller prover ours).onMessage (.hello theirs) =
      ([.send (noteOf .versionMismatch (mismatch ours theirs)), .close (mismatch ours theirs)],
        (caller prover ours).apart theirs) :=
  Machine.compareVersions_of_ne rfl h []

theorem callee_greets :
    (callee checker theirs).onMessage (.hello ours) =
      (.send (.hello ((callee checker theirs).compareVersions ours [.reserve]).2.own) ::
        ((callee checker theirs).compareVersions ours [.reserve]).1,
        ((callee checker theirs).compareVersions ours [.reserve]).2) := rfl

private theorem callee_meets (h : theirs.version.major = ours.version.major) :
    (callee checker theirs).onMessage (.hello ours) =
      ([.send (.hello theirs), .reserve], (callee checker theirs).met ours) := by
  rw [callee_greets, Machine.compareVersions_of_eq h]
  rfl

private theorem callee_parts (h : theirs.version.major ≠ ours.version.major) :
    (callee checker theirs).onMessage (.hello ours) =
      ([.send (.hello theirs), .send (noteOf .versionMismatch (mismatch theirs ours)),
        .close (mismatch theirs ours)], (callee checker theirs).apart ours) := by
  rw [callee_greets, Machine.compareVersions_of_ne rfl h]
  rfl

/-- The answer is judged by the challenge that is open and by the identity announced. -/
theorem callee_judges {nonce : Nonce} {credential : Bytes} :
    (((callee checker theirs).met ours).awaiting nonce).onMessage (.auth (.response credential)) =
      if checker.verify nonce credential ours.identity then
        ([.register], (((callee checker theirs).met ours).awaiting nonce).spent)
      else ([.send (.authResult ⟨false, none⟩), .close .authFailed],
        (((callee checker theirs).met ours).awaiting nonce).spent.quit .authFailed) := rfl

end Reactions

/-! ## Turns -/

/-- What can happen once the client has begun, while nothing disturbs the two. -/
inductive Turn where
  /-- The first message on its way to the client arrives. -/
  | client
  /-- The first message on its way to the server arrives. -/
  | server
  /-- The server is told whether it has a place. -/
  | reserved
  /-- The server is told that its session is registered. -/
  | registered

/-- The occurrence that a turn is, when the server has a place for this challenge, or is full, and
registers its session under this name. -/
def Turn.occurrence (place : Option Nonce) (id : SessionId) : Turn → Occurrence
  | client => .arrive .client
  | server => .arrive .server
  | reserved => .reserved (place.elim (.error .capacityExceeded) .ok)
  | registered => .registered (.ok id)

/-- An encounter that nothing disturbs. -/
structure Meeting extends Encounter where
  /-- Everything the client has wanted done. -/
  said : List Action

namespace Meeting

/-- Two fresh machines of which the client has begun; before that there is nothing to react to. -/
def opened (prover : Prover) (checker : Checker) (ours theirs : Hello) : Meeting :=
  ⟨(Encounter.fresh prover checker ours theirs).step .start,
    (Encounter.fresh prover checker ours theirs).client.start.1⟩

/-- What the client wants done in a turn. -/
def utters (e : Meeting) : Turn → List Action
  | .client =>
    match e.toClient with
    | [] => []
    | msg :: _ => (e.client.onMessage msg).1
  | .server | .reserved | .registered => []

/-- It can come to this turn: a message is on its way, or the server has asked. -/
def Open (e : Meeting) : Turn → Prop
  | .client => e.toClient ≠ []
  | .server => e.toServer ≠ []
  | .reserved => .reserve ∈ e.server.asked
  | .registered => .register ∈ e.server.asked

instance (e : Meeting) : (t : Turn) → Decidable (e.Open t)
  | .client => inferInstanceAs (Decidable (e.toClient ≠ []))
  | .server => inferInstanceAs (Decidable (e.toServer ≠ []))
  | .reserved => inferInstanceAs (Decidable (.reserve ∈ e.server.asked))
  | .registered => inferInstanceAs (Decidable (.register ∈ e.server.asked))

/-- Neither side can move: what is still on its way is for a machine that has given up. -/
structure AtRest (e : Meeting) : Prop where
  client : e.Open .client → e.client.stage.terminal = true
  server : e.Open .server → e.server.machine.stage.terminal = true
  reserved : ¬ e.Open .reserved
  registered : ¬ e.Open .registered

section

variable (place : Option Nonce) (id : SessionId)

def turn (e : Meeting) (t : Turn) : Meeting :=
  ⟨e.step (t.occurrence place id), e.said ++ e.utters t⟩

def run (e : Meeting) (turns : List Turn) : Meeting := turns.foldl (turn place id) e

/-- It can come to all of these turns, in this order. -/
def Plays (e : Meeting) : List Turn → Prop
  | [] => True
  | t :: turns => e.Open t ∧ (e.turn place id t).Plays turns

instance decidablePlays (e : Meeting) : (turns : List Turn) → Decidable (e.Plays place id turns)
  | [] => inferInstanceAs (Decidable True)
  | t :: turns =>
    haveI := decidablePlays (e.turn place id t) turns
    inferInstanceAs (Decidable (e.Open t ∧ (e.turn place id t).Plays place id turns))

/-- What every turn leads one further in, a play leads in by its length. -/
theorem run_of_turn {place : Option Nonce} {id : SessionId} {P : Nat → Meeting → Prop}
    (hturn : ∀ n e t, P n e → e.Open t → P (n + 1) (e.turn place id t)) {n : Nat} {e : Meeting}
    {turns : List Turn} (h : P n e) (hplays : e.Plays place id turns) :
    P (n + turns.length) (e.run place id turns) := by
  induction turns generalizing n e with
  | nil => exact h
  | cons t turns ih =>
    obtain ⟨hopen, hplays⟩ := hplays
    have hnext := ih (hturn n e t h hopen) hplays
    rwa [Nat.add_right_comm] at hnext

end

/-- Both sides have given up, for these reasons. -/
structure Fails (e : Meeting) (client server : Failure) : Prop where
  client_closing : e.client.stage = .closing
  client_failure : e.client.failure = some client
  server_closing : e.server.machine.stage = .closing
  server_failure : e.server.machine.failure = some server

/-- Both sides have a session of this name. -/
structure Succeeds (e : Meeting) (id : SessionId) : Prop where
  client_established : e.client.stage = .established
  client_session : e.client.session = some id
  server_established : e.server.machine.stage = .established
  server_session : e.server.machine.session = some id

/-- Neither side has sent a leg of the proof. -/
def Unproved (e : Meeting) : Prop := ∀ a ∈ e.said ++ e.server.log, a.auth? = none

end Meeting

/-! ## Scenes -/

section Scenes

variable (prover : Prover) (checker : Checker) (ours theirs : Hello) (id : SessionId)

/-- The situations of two nodes of different major versions, after this many turns. -/
inductive Clash : Nat → Meeting → Prop
  | opened : Clash 0 (.opened prover checker ours theirs)
  /-- The server has given up. -/
  | server : Clash 1 ⟨⟨caller prover ours, ⟨(callee checker theirs).apart ours, [],
      [.send (.hello theirs), .send (noteOf .versionMismatch (mismatch theirs ours)),
        .close (mismatch theirs ours)], []⟩, [],
      [.hello theirs, noteOf .versionMismatch (mismatch theirs ours)]⟩, [.send (.hello ours)]⟩
  /-- Both have; their reports may still be on their way. -/
  | both {n : Nat} {toServer toClient : List Message}
      (hturns : n + toServer.length + toClient.length = 4) :
      Clash n ⟨⟨(caller prover ours).apart theirs, ⟨(callee checker theirs).apart ours, [],
        [.send (.hello theirs), .send (noteOf .versionMismatch (mismatch theirs ours)),
          .close (mismatch theirs ours)], []⟩, toServer, toClient⟩,
        [.send (.hello ours), .send (noteOf .versionMismatch (mismatch ours theirs)),
          .close (mismatch ours theirs)]⟩

/-- The client has or has not read the hello of the server, with what is on its way to it when the
server has sent this since. -/
inductive Catches (since : List Message) : Nat → Machine → List Message → Prop
  | late : Catches since 0 (caller prover ours) (.hello theirs :: since)
  | level : Catches since 1 ((caller prover ours).met theirs) since

/-- The situations of two nodes of one major version, after this many turns, when the server has a
place for this challenge or is full. -/
inductive Course : Option Nonce → Nat → Meeting → Prop
  | opened {place : Option Nonce} : Course place 0 (.opened prover checker ours theirs)
  | greeted {place : Option Nonce} {k : Nat} {client : Machine} {toClient : List Message}
      {said : List Action} (hcatches : Catches prover ours theirs [] k client toClient) :
      Course place (k + 1) ⟨⟨client, ⟨(callee checker theirs).met ours, [.reserve],
        [.send (.hello theirs), .reserve], []⟩, [], toClient⟩, said⟩
  | full {k : Nat} {client : Machine} {toClient : List Message} {said log : List Action}
      (hlog : log.filterMap Action.challenge? = []) (hcatches : Catches prover ours theirs
        [noteOf .capacityExceeded .capacityExceeded] k client toClient) :
      Course none (k + 2) ⟨⟨client, ⟨((callee checker theirs).met ours).quit .capacityExceeded, [],
        log, []⟩, [], toClient⟩, said⟩
  | turnedAway {said log : List Action} (hlog : log.filterMap Action.challenge? = []) :
      Course none 4 ⟨⟨((caller prover ours).met theirs).quit .capacityExceeded,
        ⟨((callee checker theirs).met ours).quit .capacityExceeded, [], log, []⟩, [], []⟩, said⟩
  | challenged {nonce : Nonce} {k : Nat} {client : Machine} {toClient : List Message}
      {said log : List Action} (hcatches : Catches prover ours theirs
        [.auth (.challenge nonce)] k client toClient) :
      Course (some nonce) (k + 2) ⟨⟨client, ⟨((callee checker theirs).met ours).awaiting nonce, [],
        log, []⟩, [], toClient⟩, said⟩
  | answered {nonce : Nonce} {said log : List Action} :
      Course (some nonce) 4 ⟨⟨{ (caller prover ours).met theirs with stage := .authPending },
        ⟨((callee checker theirs).met ours).awaiting nonce, [], log, []⟩,
        [.auth (.response (prover.respond nonce ours.identity))], []⟩, said⟩
  | rejected {nonce : Nonce} {said log : List Action}
      (hverify : checker.verify nonce (prover.respond nonce ours.identity) ours.identity = false) :
      Course (some nonce) 5 ⟨⟨{ (caller prover ours).met theirs with stage := .authPending },
        ⟨(((callee checker theirs).met ours).awaiting nonce).spent.quit .authFailed, [], log, []⟩,
        [], [.authResult ⟨false, none⟩]⟩, said⟩
  | dismissed {nonce : Nonce} {said log : List Action}
      (hverify : checker.verify nonce (prover.respond nonce ours.identity) ours.identity = false) :
      Course (some nonce) 6 ⟨⟨Machine.quit { (caller prover ours).met theirs with
          stage := .authPending } .authFailed,
        ⟨(((callee checker theirs).met ours).awaiting nonce).spent.quit .authFailed, [], log, []⟩,
        [], []⟩, said⟩
  | verified {nonce : Nonce} {said log : List Action}
      (hverify : checker.verify nonce (prover.respond nonce ours.identity) ours.identity = true) :
      Course (some nonce) 5 ⟨⟨{ (caller prover ours).met theirs with stage := .authPending },
        ⟨(((callee checker theirs).met ours).awaiting nonce).spent, [.register], log, []⟩,
        [], []⟩, said⟩
  | registered {nonce : Nonce} {said log : List Action}
      (hverify : checker.verify nonce (prover.respond nonce ours.identity) ours.identity = true) :
      Course (some nonce) 6 ⟨⟨{ (caller prover ours).met theirs with stage := .authPending },
        ⟨(((callee checker theirs).met ours).awaiting nonce).spent.up id, [], log, [id]⟩,
        [], [.authResult ⟨true, some id⟩]⟩, said⟩
  | up {nonce : Nonce} {said log : List Action}
      (hverify : checker.verify nonce (prover.respond nonce ours.identity) ours.identity = true) :
      Course (some nonce) 7 ⟨⟨Machine.up { (caller prover ours).met theirs with
          stage := .authPending } id,
        ⟨(((callee checker theirs).met ours).awaiting nonce).spent.up id, [], log, [id]⟩,
        [], []⟩, said⟩

end Scenes

section Turns

variable {prover : Prover} {checker : Checker} {ours theirs : Hello} {place : Option Nonce}
  {id : SessionId} {client machine : Machine} {server : Tended} {log said : List Action}
  {toServer toClient : List Message} {msg : Message} {r : Machine.Reaction}

theorem turn_client (hr : client.onMessage msg = r) :
    Meeting.turn place id ⟨⟨client, server, toServer, msg :: toClient⟩, said⟩ .client =
      ⟨⟨r.2, server, toServer ++ r.1.filterMap Action.message?, toClient⟩, said ++ r.1⟩ := by
  obtain rfl := hr
  rfl

theorem turn_server (hr : machine.onMessage msg = r) :
    Meeting.turn place id ⟨⟨client, ⟨machine, [], log, []⟩, msg :: toServer, toClient⟩, said⟩
      .server =
      ⟨⟨client, ⟨r.2, r.1.filter Action.asks, log ++ r.1, []⟩, toServer,
        toClient ++ r.1.filterMap Action.message?⟩, said⟩ := by
  obtain rfl := hr
  exact congrArg (Meeting.mk _) (List.append_nil said)

theorem turn_reserved (hr : (place.elim (machine.fail .capacityExceeded) machine.admitted) = r) :
    Meeting.turn place id ⟨⟨client, ⟨machine, [.reserve], log, []⟩, toServer, toClient⟩, said⟩
      .reserved =
      ⟨⟨client, ⟨r.2, r.1.filter Action.asks, log ++ r.1, []⟩, toServer,
        toClient ++ r.1.filterMap Action.message?⟩, said⟩ := by
  obtain rfl := hr
  cases place <;> exact congrArg (Meeting.mk _) (List.append_nil said)

private theorem turn_registered (hr : machine.registered id = r) :
    Meeting.turn place id ⟨⟨client, ⟨machine, [.register], log, []⟩, toServer, toClient⟩, said⟩
      .registered =
      ⟨⟨client, ⟨r.2, r.1.filter Action.asks, log ++ r.1, [id]⟩, toServer,
        toClient ++ r.1.filterMap Action.message?⟩, said⟩ := by
  obtain rfl := hr
  exact congrArg (Meeting.mk _) (List.append_nil said)

variable {n : Nat} {e : Meeting} {t : Turn}

theorem Catches.sent {k : Nat} (h : Catches prover ours theirs [] k client toClient)
    (msg : Message) : Catches prover ours theirs [msg] k client (toClient ++ [msg]) := by
  cases h with
  | late => exact .late
  | level => exact .level

/-- Every turn of two nodes of different major versions leads one scene further. -/
theorem Clash.turn (hmajor : ours.version.major ≠ theirs.version.major)
    (h : Clash prover checker ours theirs n e) (hopen : e.Open t) :
    Clash prover checker ours theirs (n + 1) (e.turn place id t) := by
  cases h with
  | opened =>
    cases t with
    | client => exact absurd rfl hopen
    | server => exact turn_server (callee_parts hmajor.symm) ▸ .server
    | reserved | registered => nomatch hopen
  | server =>
    cases t with
    | client =>
      rw [turn_client (caller_parts hmajor)]
      exact .both rfl
    | server => exact absurd rfl hopen
    | reserved | registered => nomatch hopen
  | @both n toServer toClient hturns =>
    cases t with
    | client =>
      cases toClient with
      | nil => exact absurd rfl hopen
      | cons msg toClient =>
        rw [List.length_cons] at hturns
        rw [turn_client (Machine.onMessage_of_terminal rfl msg), List.filterMap_nil,
          List.append_nil, List.append_nil]
        exact .both (by omega)
    | server =>
      cases toServer with
      | nil => exact absurd rfl hopen
      | cons msg toServer =>
        rw [List.length_cons] at hturns
        rw [turn_server (Machine.onMessage_of_terminal rfl msg), List.filterMap_nil,
          List.append_nil, List.append_nil]
        exact .both (by omega)
    | reserved | registered => nomatch hopen

section

variable (hmajor : ours.version.major = theirs.version.major)
  (h : Course prover checker ours theirs id place n e)

include hmajor h

/-- The client can be late with the hello of the server, and reads it in three of the scenes. -/
theorem Course.client_turn (hopen : e.Open .client) :
    Course prover checker ours theirs id place (n + 1) (e.turn place id .client) := by
  cases h with
  | greeted hcatches =>
    cases hcatches with
    | late =>
      rw [turn_client (caller_meets hmajor)]
      exact .greeted .level
    | level => exact absurd rfl hopen
  | full hlog hcatches =>
    cases hcatches with
    | late =>
      rw [turn_client (caller_meets hmajor)]
      exact .full hlog .level
    | level => exact turn_client rfl ▸ .turnedAway hlog
  | challenged hcatches =>
    cases hcatches with
    | late =>
      rw [turn_client (caller_meets hmajor)]
      exact .challenged .level
    | level => exact turn_client rfl ▸ .answered
  | rejected hverify => exact turn_client rfl ▸ .dismissed hverify
  | registered hverify => exact turn_client rfl ▸ .up hverify
  | _ => exact absurd rfl hopen

private theorem Course.server_turn (hopen : e.Open .server) :
    Course prover checker ours theirs id place (n + 1) (e.turn place id .server) := by
  cases h with
  | opened => exact turn_server (callee_meets hmajor.symm) ▸ .greeted .late
  | answered =>
    rw [turn_server callee_judges]
    split
    · exact .verified ‹_›
    · exact .rejected (Bool.eq_false_iff.mpr ‹_›)
  | _ => exact absurd rfl hopen

omit hmajor in
/-- The refusal or the challenge goes out behind the hello, whether or not that has been read. -/
theorem Course.reserved_turn (hopen : e.Open .reserved) :
    Course prover checker ours theirs id place (n + 1) (e.turn place id .reserved) := by
  cases h with
  | greeted hcatches =>
    cases place with
    | none => exact turn_reserved rfl ▸ .full rfl (hcatches.sent _)
    | some nonce => exact turn_reserved rfl ▸ .challenged (hcatches.sent _)
  | verified => nomatch List.mem_singleton.mp hopen
  | _ => nomatch hopen

omit hmajor in
private theorem Course.registered_turn (hopen : e.Open .registered) :
    Course prover checker ours theirs id place (n + 1) (e.turn place id .registered) := by
  cases h with
  | greeted => nomatch List.mem_singleton.mp hopen
  | verified hverify => exact turn_registered rfl ▸ .registered hverify
  | _ => nomatch hopen

/-- Every turn of two nodes of one major version leads one scene further. -/
theorem Course.turn (hopen : e.Open t) :
    Course prover checker ours theirs id place (n + 1) (e.turn place id t) := by
  cases t with
  | client => exact h.client_turn hmajor hopen
  | server => exact h.server_turn hmajor hopen
  | reserved => exact h.reserved_turn hopen
  | registered => exact h.registered_turn hopen

end

/-! ## The end -/

theorem Clash.length_le (h : Clash prover checker ours theirs n e) : n ≤ 4 := by
  cases h with
  | opened | server => decide
  | both hturns => omega

theorem Course.length_le (h : Course prover checker ours theirs id place n e) : n ≤ 7 := by
  cases h with
  | greeted hcatches | full _ hcatches | challenged hcatches => cases hcatches <;> decide
  | _ => decide

theorem Clash.of_atRest (h : Clash prover checker ours theirs n e) (hrest : e.AtRest) :
    e.Fails (mismatch ours theirs) (mismatch theirs ours) ∧ e.Unproved := by
  cases h with
  | opened => nomatch hrest.server (List.cons_ne_nil _ _)
  | server => nomatch hrest.client (List.cons_ne_nil _ _)
  | both hturns => exact ⟨⟨rfl, rfl, rfl, rfl⟩, by simp [Meeting.Unproved, Action.auth?, noteOf]⟩

/-- What it has come to when neither side can move. -/
inductive Settles (prover : Prover) (checker : Checker) (ours : Hello) (id : SessionId)
    (e : Meeting) : Option Nonce → Prop
  | turnedAway (hfails : e.Fails .capacityExceeded .capacityExceeded)
      (hchallenges : e.server.challenges = []) : Settles prover checker ours id e none
  | dismissed {nonce : Nonce}
      (hverify : checker.verify nonce (prover.respond nonce ours.identity) ours.identity = false)
      (hfails : e.Fails .authFailed .authFailed) : Settles prover checker ours id e (some nonce)
  | up {nonce : Nonce}
      (hverify : checker.verify nonce (prover.respond nonce ours.identity) ours.identity = true)
      (hsucceeds : e.Succeeds id) : Settles prover checker ours id e (some nonce)

theorem Course.of_atRest (h : Course prover checker ours theirs id place n e)
    (hrest : e.AtRest) : Settles prover checker ours id e place := by
  cases h with
  | opened => nomatch hrest.server (List.cons_ne_nil _ _)
  | greeted => exact absurd List.mem_cons_self hrest.reserved
  | full _ hcatches | challenged hcatches =>
    cases hcatches <;> nomatch hrest.client (List.cons_ne_nil _ _)
  | turnedAway hlog => exact .turnedAway ⟨rfl, rfl, rfl, rfl⟩ hlog
  | answered => nomatch hrest.server (List.cons_ne_nil _ _)
  | rejected | registered => nomatch hrest.client (List.cons_ne_nil _ _)
  | dismissed hverify => exact .dismissed hverify ⟨rfl, rfl, rfl, rfl⟩
  | verified => exact absurd List.mem_cons_self hrest.registered
  | up hverify => exact .up hverify ⟨rfl, rfl, rfl, rfl⟩

end Turns

/-- **Outcomes.** A handshake that nothing disturbs is over after seven turns at most, in whatever
order they come, and when neither side can move, both have come to the same. Nodes of different
major versions have both given up over that, and neither has sent anything of a proof. Otherwise, if
the server is full, both have given up over that, and there was no challenge; if the server's
checker does not accept the client's answer, both have given up over that; and if it does, both have
the session. With one secret on both sides it does. -/
theorem outcomes (prover : Prover) (checker : Checker) (ours theirs : Hello)
    (place : Option Nonce) (id : SessionId) (turns : List Turn)
    (hplays : (Meeting.opened prover checker ours theirs).Plays place id turns) :
    let e := (Meeting.opened prover checker ours theirs).run place id turns
    turns.length ≤ 7 ∧ (e.AtRest →
      (ours.version.major ≠ theirs.version.major →
        e.Fails (mismatch ours theirs) (mismatch theirs ours) ∧ e.Unproved) ∧
      (ours.version.major = theirs.version.major →
        (place = none →
          e.Fails .capacityExceeded .capacityExceeded ∧ e.server.challenges = []) ∧
        ∀ nonce, place = some nonce →
          (checker.verify nonce (prover.respond nonce ours.identity) ours.identity = false →
            e.Fails .authFailed .authFailed) ∧
          (checker.verify nonce (prover.respond nonce ours.identity) ours.identity = true →
            e.Succeeds id) ∧
          ∀ secret : Secret, prover = secret.prover → checker = secret.checker →
            e.Succeeds id)) := by
  intro e
  -- A scene is numbered by the turns it took, so the last one says how many there were.
  by_cases hmajor : ours.version.major = theirs.version.major
  · have hcourse : Course prover checker ours theirs id place (0 + turns.length) e :=
      Meeting.run_of_turn (fun _ _ _ h hopen ↦ h.turn hmajor hopen) .opened hplays
    rw [Nat.zero_add] at hcourse
    refine ⟨hcourse.length_le, fun hrest ↦ ⟨fun hne ↦ absurd hmajor hne, fun _ ↦ ?_⟩⟩
    have hsettles := hcourse.of_atRest hrest
    cases hsettles with
    | turnedAway hfails hchallenges => exact ⟨fun _ ↦ ⟨hfails, hchallenges⟩, nofun⟩
    | dismissed hverify hfails =>
      refine ⟨nofun, ?_⟩
      rintro nonce ⟨rfl⟩
      refine ⟨fun _ ↦ hfails, fun h ↦ absurd (hverify.symm.trans h) Bool.false_ne_true, ?_⟩
      rintro secret rfl rfl
      exact absurd (hverify.symm.trans (secret.verify_respond _ _)) Bool.false_ne_true
    | up hverify hsucceeds =>
      refine ⟨nofun, ?_⟩
      rintro nonce ⟨rfl⟩
      exact ⟨fun h ↦ absurd (h.symm.trans hverify) Bool.false_ne_true, fun _ ↦ hsucceeds,
        fun _ _ _ ↦ hsucceeds⟩
  · have hclash : Clash prover checker ours theirs (0 + turns.length) e :=
      Meeting.run_of_turn (fun _ _ _ h hopen ↦ h.turn hmajor hopen) .opened hplays
    rw [Nat.zero_add] at hclash
    exact ⟨Nat.le_trans hclash.length_le (by decide), fun hrest ↦
      ⟨fun _ ↦ hclash.of_atRest hrest, fun heq ↦ absurd heq hmajor⟩⟩

/-- A client that reads the hello after the server has challenged gets its session, and one of
another major version gives up while the report of the server is on its way. -/
theorem outcomes_late_and_crossing :
    let prover : Prover := ⟨fun nonce _ ↦ nonce.bytes⟩
    let checker : Checker := ⟨fun nonce credential _ ↦ credential == nonce.bytes⟩
    let name : Uuid := ⟨List.replicate 16 7, rfl⟩
    let hello (major : UInt8) : Hello := ⟨⟨major, 0⟩, name, "laptop", 0⟩
    let late : List Turn := [.server, .reserved, .client, .client, .server, .registered, .client]
    let crossing : List Turn := [.server, .client, .server]
    let same := Meeting.opened prover checker (hello 1) (hello 1)
    let other := Meeting.opened prover checker (hello 2) (hello 1)
    same.Plays (some .zero) ⟨name⟩ late ∧ other.Plays (some .zero) ⟨name⟩ crossing ∧
      (same.run (some .zero) ⟨name⟩ late).Succeeds ⟨name⟩ ∧
      (other.run (some .zero) ⟨name⟩ crossing).toClient ≠ [] ∧
      (other.run (some .zero) ⟨name⟩ crossing).Fails (mismatch (hello 2) (hello 1))
        (mismatch (hello 1) (hello 2)) := by
  intro prover checker name hello late crossing same other
  have hlate : same.Plays (some .zero) ⟨name⟩ late := by decide +kernel
  have hcrossing : other.Plays (some .zero) ⟨name⟩ crossing := by decide +kernel
  have hrest : (same.run (some .zero) ⟨name⟩ late).AtRest :=
    ⟨by decide +kernel, by decide +kernel, by decide +kernel, by decide +kernel⟩
  have hrest' : (other.run (some .zero) ⟨name⟩ crossing).AtRest :=
    ⟨by decide +kernel, by decide +kernel, by decide +kernel, by decide +kernel⟩
  obtain ⟨-, hends⟩ := outcomes _ _ _ _ _ _ _ hlate
  obtain ⟨-, hends'⟩ := outcomes _ _ _ _ _ _ _ hcrossing
  exact ⟨hlate, hcrossing, (((hends hrest).2 rfl).2 _ rfl).2.1 (by decide +kernel),
    by decide +kernel, ((hends' hrest').1 (by decide +kernel)).1⟩

end DeskLink.Handshake
