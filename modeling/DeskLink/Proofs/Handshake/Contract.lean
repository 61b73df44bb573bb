import DeskLink.Proofs.Checked
import DeskLink.Proofs.Handshake.Record

/-!
# What a handshake promises

Whoever conducts a handshake with a fresh machine can rely on how it ends (`contract`): a success is
a success in everything that knows of it, a failure has shut the stream, and the registry was asked
in order.

The conduct is prepared for actions that it cannot carry out, and fails then. It never comes to
that, except that a server's machine asks for a place also where there is no registry.

## Which failure it is

A handshake fails with the failure that its machine first closed for, even if this could not be told
to the other side. There is one exception (`verdict`): when the budget is used up while the machine
is closing already and has something to say that the stream does not take, the handshake fails with
a timeout, although the machine still knows better.
-/

namespace DeskLink.Handshake

namespace Conduct

/-- Why the next action cannot be carried out. -/
def baffled? (c : Conduct) : Option Failure :=
  match c.phase with
  | .acting (.reserve :: _) => if c.hosting then none else some noPlaces
  | .acting (.register :: _) =>
    if c.hosting && c.machine.peer.isSome && c.machine.version.isSome then none
    else some noRegistration
  | .acting (.establish _ :: _) => if c.machine.outcome?.isSome then none else some noPeer
  | _ => none

theorem step_of_baffled? {c : Conduct} {why : Failure} (h : c.baffled? = some why) (o : Offer) :
    ∃ c', c.step o = some (c', .none) ∧
      (c'.result? = some (.error why) ∨ c'.machine = (c.machine.fail why).2) := by
  unfold baffled? at h
  split at h
  · rename_i pending hphase
    split at h
    · nomatch h
    · rename_i hhosting
      obtain rfl := Option.some.inj h
      refine ⟨c.react pending (c.machine.fail noPlaces), ?_, .inr rfl⟩
      simp [step, drive, hphase, act, hhosting]
  · rename_i pending hphase
    split at h
    · nomatch h
    · rename_i hunknown
      obtain rfl := Option.some.inj h
      refine ⟨c.react pending (c.machine.fail noRegistration), ?_, .inr rfl⟩
      simp only [step, drive, hphase, act]
      cases hhosting : c.hosting <;> cases hpeer : c.machine.peer <;>
        cases hversion : c.machine.version <;> simp_all
  · rename_i id pending hphase
    split at h
    · nomatch h
    · rename_i hunknown
      obtain rfl := Option.some.inj h
      have hnone : c.machine.outcome? = none := by simpa using hunknown
      refine ⟨{ c with link := c.link.bind id, phase := .ended (.error noPeer) }, ?_, .inl rfl⟩
      simp [step, drive, hphase, act, hnone]
  · nomatch h

/-- An action has come to what it is for: the registry was asked, or the handshake is complete. -/
def CarriedOut : Action → Conduct × Effect → Prop
  | .reserve, (_, effect) => effect = .reserved
  | .register, (_, effect) => ∃ peer version, effect = .registered peer version
  | .establish _, (c, _) => ∃ outcome, c.phase = .ended (.ok outcome)
  | .send _, _ | .close _, _ => True

/-- It fails for such a reason only then: any other action is carried out. -/
theorem carriedOut_act_iff {c : Conduct} {a : Action} {pending : List Action}
    (hphase : c.phase = .acting (a :: pending)) (o : Offer) :
    CarriedOut a (c.act o a pending) ↔ c.baffled? = none := by
  cases a with
  | send m | close why => simp [CarriedOut, baffled?, hphase]
  | reserve =>
    simp only [CarriedOut, baffled?, hphase, act]
    cases c.hosting with
    | false => simp
    | true => cases o.reserve <;> simp
  | register =>
    simp only [CarriedOut, baffled?, hphase, act]
    cases c.hosting <;> cases c.machine.peer <;> cases c.machine.version <;> try simp
    split <;> simp
  | establish id =>
    simp only [CarriedOut, baffled?, hphase, act]
    cases c.machine.outcome? <;> simp

end Conduct

theorem Conduct.phase_of_result? {c : Conduct} {result : Except Failure Outcome}
    (h : c.result? = some result) : c.phase = .ended result := by
  unfold result? at h
  split at h
  · rename_i hphase
    rw [hphase, Option.some.inj h]
  · cases h

namespace Record

variable {r : Record} {server : Bool} {own : Hello} {hosting : Bool} {budget : Duration}

private theorem Sound.of_ok (h : r.Sound server own hosting budget) {outcome : Outcome}
    (hresult : r.conduct.result? = some (.ok outcome)) :
    r.conduct.machine.stage = .established ∧ r.conduct.link.binding = some outcome.session ∧
      r.conduct.machine.session = some outcome.session ∧
      ∃ hello more, r.heard = .hello hello :: more ∧ outcome.peer = hello.identity ∧
        own.version.negotiate hello.version = some outcome.version := by
  have hstands := h.stands
  rwa [Stands, Conduct.phase_of_result? hresult] at hstands

theorem Sound.of_error (h : r.Sound server own hosting budget) {why : Failure}
    (hresult : r.conduct.result? = some (.error why)) :
    r.conduct.machine.stage = .closed ∧ r.shut = true ∧ r.Concludes why := by
  have hstands := h.stands
  rwa [Stands, Conduct.phase_of_result? hresult] at hstands

private theorem Sound.phase_ne (h : r.Sound server own hosting budget)
    (hterminal : r.conduct.machine.stage.terminal = true) : r.conduct.phase ≠ .acting [] := by
  intro hphase
  have hopen := (h.onCourse (.inl hphase)).1.next.open_of_nil
  exact Bool.false_ne_true (hopen.symm.trans hterminal)

/-- An action can be carried out unless a place is asked for where there is no registry. -/
theorem Sound.of_baffled? (h : r.Sound server own hosting budget) {why : Failure}
    (hbaffled : r.conduct.baffled? = some why) :
    why = Conduct.noPlaces ∧ hosting = false ∧ server = true := by
  unfold Conduct.baffled? at hbaffled
  split at hbaffled
  · rename_i hphase
    have hcourse := (h.onCourse (.inl hphase)).1
    obtain ⟨-, -, hrole⟩ := hcourse.next.of_reserve
    split at hbaffled
    · nomatch hbaffled
    · rename_i hhosting
      rw [h.hosting_eq] at hhosting
      exact ⟨(Option.some.inj hbaffled).symm, Bool.not_eq_true _ ▸ hhosting,
        hcourse.isServer_eq.symm.trans hrole⟩
  · -- Who asks for a session was given a place, so there is a registry.
    rename_i hphase
    have hcourse := (h.onCourse (.inl hphase)).1
    obtain ⟨-, hstage, hrole⟩ := hcourse.next.of_register
    have hhosting : hosting = true := h.hosted (by simp [hcourse.dealings_eq_place hstage hrole])
    obtain ⟨hello, more, -, hmet⟩ := hcourse.met (.inr (.inl hstage))
    obtain ⟨v, hversion, -⟩ := hmet.version_eq
    simp [h.hosting_eq, hhosting, hmet.peer_eq, hversion] at hbaffled
  · rename_i hphase
    have hcourse := (h.onCourse (.inl hphase)).1
    obtain ⟨hstage, hsession⟩ := hcourse.next.of_establish
    obtain ⟨hello, more, -, hmet⟩ := hcourse.met (.inr (.inr hstage))
    obtain ⟨v, -, houtcome⟩ := outcome?_of_met hmet hsession
    simp [houtcome] at hbaffled
  · nomatch hbaffled

/-- **The contract of a handshake** that is conducted with a fresh machine. A success is known to
the machine and the link by the name of the session, and is with whom the first message has said, at
the common version. After a failure the machine is closed and the stream shut. The registry is
asked for a place and then, once one was given, for a session, both at most once. A conduct whose
machine is over does not wait for a message. And it can do all that it has to do, unless a server's
machine is conducted without a registry; what it can do it does, without one of the failures that it
is prepared for. -/
theorem contract (role : Role) (own : Hello) (link : Link) (hosting : Bool) (budget : Duration)
    (now : Instant) (offers : List Offer) :
    let r := (fresh role own link hosting budget now).run offers
    (∀ outcome, r.conduct.result? = some (.ok outcome) →
      r.conduct.machine.stage = .established ∧ r.conduct.link.binding = some outcome.session ∧
      r.conduct.machine.session = some outcome.session ∧
      ∃ hello more, r.heard = .hello hello :: more ∧ outcome.peer = hello.identity ∧
        own.version.negotiate hello.version = some outcome.version) ∧
    (∀ why, r.conduct.result? = some (.error why) →
      r.conduct.machine.stage = .closed ∧ r.shut = true) ∧
    Orderly r.dealings ∧
    (r.conduct.machine.stage.terminal = true → r.conduct.phase ≠ .acting []) ∧
    (∀ why, r.conduct.baffled? = some why →
      why = Conduct.noPlaces ∧ hosting = false ∧ role.isServer = true) ∧
    ∀ a pending o, r.conduct.phase = .acting (a :: pending) →
      (Conduct.CarriedOut a (r.conduct.act o a pending) ↔ r.conduct.baffled? = none) := by
  intro r
  have hsound := (sound_fresh role own link hosting budget now).run offers
  refine ⟨fun _ ↦ hsound.of_ok, fun why hresult ↦ ?_, hsound.orderly, hsound.phase_ne,
    fun _ ↦ hsound.of_baffled?, fun _ _ o hphase ↦ Conduct.carriedOut_act_iff hphase o⟩
  obtain ⟨hstage, hshut, -⟩ := hsound.of_error hresult
  exact ⟨hstage, hshut⟩

/-- A client greets a server of a later minor version, is challenged and joins. -/
theorem contract_joined :
    let own : Hello := ⟨⟨1, 0⟩, ⟨⟨List.replicate 16 7, rfl⟩, "client", 1⟩⟩
    let peer : Hello := ⟨⟨1, 2⟩, ⟨⟨List.replicate 16 8, rfl⟩, "server", 1⟩⟩
    let id : SessionId := ⟨⟨List.replicate 16 9, rfl⟩⟩
    let frame (seq : UInt32) (m : Message) : Bytes :=
      ((Envelope.mk 1 none seq m).encode.toOption.map Frame.wrap).getD []
    let offer (read : ReadReply) : Offer :=
      ⟨0, read, .accepts 100, .finished, .ok (), .zero, fun _ _ ↦ .error .authFailed⟩
    let quiet := offer .notReady
    let offers := [quiet, quiet, quiet, offer (.data (frame 1 (.hello peer) ++
      frame 2 (.auth (.challenge .zero)) ++ frame 3 (.authResult ⟨true, some id⟩)))] ++
      List.replicate 7 quiet
    let r :=
      (fresh (.client ⟨fun nonce _ ↦ nonce.bytes⟩) own (.new 1 65536) false 1000 0).run offers
    r.conduct.result? = some (.ok ⟨id, peer.identity, ⟨1, 0⟩⟩) ∧
      r.conduct.machine.stage = .established ∧ r.conduct.link.binding = some id ∧
      ∃ hello more, r.heard = .hello hello :: more ∧ peer.identity = hello.identity := by
  intro own peer id frame offer quiet offers r
  have hresult : r.conduct.result? = some (.ok ⟨id, peer.identity, ⟨1, 0⟩⟩) := by decide +kernel
  obtain ⟨hstage, hbound, -, hello, more, hheard, hpeer, -⟩ :=
    (contract (.client ⟨fun nonce _ ↦ nonce.bytes⟩) own (.new 1 65536) false 1000 0 offers).1 _
      hresult
  exact ⟨hresult, hstage, hbound, hello, more, hheard, hpeer⟩

/-- A server's machine that is conducted without a registry asks for a place, and so the handshake
fails. -/
theorem baffled_without_registry :
    let own : Hello := ⟨⟨1, 0⟩, ⟨⟨List.replicate 16 7, rfl⟩, "server", 1⟩⟩
    let peer : Hello := ⟨⟨1, 0⟩, ⟨⟨List.replicate 16 8, rfl⟩, "client", 1⟩⟩
    let hello := ((Envelope.mk 1 none 1 (.hello peer)).encode.toOption.map Frame.wrap).getD []
    let offer (read : ReadReply) : Offer :=
      ⟨0, read, .accepts 100, .finished, .ok (), .zero, fun _ _ ↦ .error .authFailed⟩
    let asked := offer (.data hello) :: List.replicate 4 (offer .notReady)
    let r := (fresh (.server ⟨fun _ _ _ ↦ true⟩) own (.new 1 65536) false 1000 0).run asked
    r.conduct.baffled? = some Conduct.noPlaces ∧
      (r.run (List.replicate 6 (offer .notReady))).conduct.result? =
        some (.error Conduct.noPlaces) := by
  decide +kernel

/-- **The verdict of a handshake** is what its machine first closed for, unless the budget was used
up meanwhile. -/
theorem verdict (role : Role) (own : Hello) (link : Link) (hosting : Bool) (budget : Duration)
    (now : Instant) (offers : List Offer) {why : Failure}
    (hresult : ((fresh role own link hosting budget now).run offers).conduct.result? =
      some (.error why)) :
    let r := (fresh role own link hosting budget now).run offers
    ∃ first, r.first = some first ∧ r.conduct.machine.failure = some first ∧
      why = if r.overtaken then .timeout budget.millis else first := by
  intro r
  have hsound := (sound_fresh role own link hosting budget now).run offers
  obtain ⟨-, -, first, hfirst, hwhy⟩ := hsound.of_error hresult
  rw [hsound.budget_eq] at hwhy
  exact ⟨first, hfirst, hsound.first_eq.symm.trans hfirst, hwhy⟩

/-- A server is greeted by a client of another major version. It has said who it is and begins to
report the mismatch, but the stream takes no more until the budget is used up. -/
theorem verdict_overtaken :
    let own : Hello := ⟨⟨1, 0⟩, ⟨⟨List.replicate 16 7, rfl⟩, "server", 1⟩⟩
    let peer : Hello := ⟨⟨2, 0⟩, ⟨⟨List.replicate 16 8, rfl⟩, "client", 1⟩⟩
    let mismatch := Failure.versionMismatch ⟨1, 0⟩ (some ⟨2, 0⟩)
    let hello := ((Envelope.mk 1 none 1 (.hello peer)).encode.toOption.map Frame.wrap).getD []
    let offer (now : Instant) (read : ReadReply) (write : WriteReply) : Offer :=
      ⟨now, read, write, .finished, .ok (), .zero, fun _ _ ↦ .error .authFailed⟩
    let offers := offer 0 (.data hello) .notReady ::
      List.replicate 5 (offer 1 .notReady (.accepts 100)) ++
      List.replicate 2 (offer 500000000 .notReady .notReady)
    let r :=
      (fresh (.server ⟨fun _ _ _ ↦ true⟩) own (.new 1 65536) true (.ofMillis 500) 0).run offers
    r.conduct.result? = some (.error (.timeout 500)) ∧ r.first = some mismatch ∧
      r.conduct.machine.failure = some mismatch ∧ r.overtaken = true := by
  intro own peer mismatch hello offer offers r
  have hresult : r.conduct.result? = some (.error (.timeout 500)) := by decide +kernel
  have hmismatch : r.first = some mismatch := by decide +kernel
  obtain ⟨first, hfirst, hfailure, -⟩ := verdict (.server ⟨fun _ _ _ ↦ true⟩) own (.new 1 65536)
    true (.ofMillis 500) 0 offers hresult
  obtain rfl := Option.some.inj (hmismatch.symm.trans hfirst)
  exact ⟨hresult, hmismatch, hfailure, by decide +kernel⟩

end Record

end DeskLink.Handshake
