import Mathlib.Data.List.Infix
import DeskLink.Proofs.Server.Reports

/-!
# Records never go back

The record of a session is shared: the connection that serves the session reports into it, while
everybody else may ask the registry for whatever it does, and may remove the session at any time. A
`SharedHost` is a server together with those others.

As long as a session stays registered and only its own connection reports about it, its record gets
on and is never ahead of the link of that connection. What carries this is `SharedHost.Accurate`:
the record says no more than the connection could say, and no other connection that is still served
speaks for the session. One act keeps it (`Accurate.act`). A report that comes when the session is
gone finds nothing to be folded into.

The registry takes a report about a session from anybody, so the record of a session goes back if
somebody else reports about it (`records_go_back`). Only that there is a round trip is not forgotten
even then.
-/

namespace DeskLink.Server

open Session (Worker)

/-! ## What a connection could say -/

/-- The connection has registered this session and is still served. -/
def Connection.Serves (c : Connection) (id : SessionId) : Prop :=
  c.registered = some id ∧ c.result? = none

instance (c : Connection) (id : SessionId) : Decidable (c.Serves id) :=
  decidable_of_iff (c.registered = some id ∧ c.result?.isNone) (by simp [Connection.Serves])

/-- The record says no more than the connection could say, whose last move was at this instant. -/
def Connection.Backs (c : Connection) (t : Instant) (x : Record) : Prop :=
  match c.stage with
  | .negotiating _ => x.outboundSeq = 0 ∧ x.inboundSeq = 0 ∧ x.lastHeartbeatAt ≤ t
  | .running w => x.outboundSeq ≤ w.link.outbound.last ∧ x.inboundSeq ≤ w.link.inbound.lastSeen ∧
      x.lastHeartbeatAt ≤ w.monitor.lastAck ∧ w.monitor.lastAck ≤ t
  | .ended _ => False

namespace Connection.Backs

variable {c c' : Connection} {t now : Instant} {x x' : Record}

theorem mono (h : c.Backs t x) (hle : t ≤ now) : c.Backs now x := by
  unfold Backs at h ⊢
  cases hstage : c.stage with
  | negotiating conduct =>
    rw [hstage] at h
    exact ⟨h.1, h.2.1, Nat.le_trans h.2.2 hle⟩
  | running w =>
    rw [hstage] at h
    exact ⟨h.1, h.2.1, h.2.2.1, Nat.le_trans h.2.2.2 hle⟩
  | ended result =>
    rw [hstage] at h
    exact h

private theorem exists_link (h : c.Backs t x) :
    ∃ l, c.link? = some l ∧ x.outboundSeq ≤ l.outbound.last ∧
    x.inboundSeq ≤ l.inbound.lastSeen := by
  unfold Backs at h
  cases hstage : c.stage with
  | negotiating conduct =>
    rw [hstage] at h
    obtain ⟨houtbound, hinbound, -⟩ := h
    refine ⟨conduct.link, by rw [Connection.link?, hstage], ?_, ?_⟩
    · rw [houtbound]
      exact UInt32.zero_le
    · rw [hinbound]
      exact UInt32.zero_le
  | running w =>
    rw [hstage] at h
    exact ⟨w.link, by rw [Connection.link?, hstage], h.1, h.2.1⟩
  | ended result =>
    rw [hstage] at h
    exact h.elim

/-- A move of the session's own worker gets the record on, if it says anything about it. -/
theorem runs {w w' : Worker} {o : Session.Offer} {effect : Session.Effect}
    (h : c.Backs t x) (hstage : c.stage = .running w) (hstage' : c'.stage = .running w')
    (hdoes : w.Does o w' effect) (hle : t ≤ o.now)
    (hx' : x' = x ∨ ∃ s, effect.report? = some s ∧ x' = x.apply s) :
    x.Advances x' ∧ c'.Backs o.now x' := by
  simp only [Backs, hstage] at h
  obtain ⟨houtbound, hinbound, htime, hlast⟩ := h
  have hgrows := Worker.grows_of_does hdoes
  have houtbound' := UInt32.le_trans houtbound hgrows.outbound_le
  have hinbound' := UInt32.le_trans hinbound hgrows.inbound_le
  have htime' : x.lastHeartbeatAt ≤ w'.monitor.lastAck ∧ w'.monitor.lastAck ≤ o.now := by
    rcases hgrows.heard with heq | heq <;> rw [heq]
    · exact ⟨htime, Nat.le_trans hlast hle⟩
    · exact ⟨Nat.le_trans htime (Nat.le_trans hlast hle), Nat.le_refl _⟩
  simp only [Backs, hstage']
  rcases hx' with rfl | ⟨s, hreport, rfl⟩
  · exact ⟨.refl _, houtbound', hinbound', htime'⟩
  · -- The report is what the worker says of itself after the move.
    rw [Worker.report_of_does hdoes hreport]
    exact ⟨Record.advances_apply houtbound' hinbound' htime'.1, UInt32.le_refl _, UInt32.le_refl _,
      Nat.le_refl _, htime'.2⟩

/-- **A move of the connection** gets the record of its session on. -/
theorem deed {r r' : Registry} {report : Option Snapshot} {id : SessionId} (h : c.Backs t x)
    (hregistered : c.registered = some id) (hdeed : Host.Deed r c now report r' c') (hle : t ≤ now)
    (hx : r.lookup id = some x) (hx' : r'.lookup id = some x') :
    x.Advances x' ∧ c'.registered = some id ∧ c'.Backs now x' := by
  have hcases := hdeed.amends.lookup_cases hx hx'
  cases hdeed with
  | negotiates hstage hstage' henters =>
    obtain rfl : x' = x := hcases.resolve_right (by simp)
    have hbacks := h.mono hle
    simp only [Backs, hstage] at hbacks
    cases henters with
    | keeps hsame => exact ⟨.refl _, hsame.trans hregistered, by simpa only [Backs, hstage']⟩
    | registers hfirst => nomatch hfirst.symm.trans hregistered
  | begins hstage hstage' hlastAck hsame =>
    obtain rfl : x' = x := hcases.resolve_right (by simp)
    simp only [Backs, hstage] at h
    refine ⟨.refl _, hsame.trans hregistered, ?_⟩
    simp only [Backs, hstage', h.1, h.2.1, hlastAck]
    exact ⟨UInt32.zero_le, UInt32.zero_le, Nat.le_trans h.2.2 hle, Nat.le_refl _⟩
  | runs hstage hstage' hnow hdoes hsame _ =>
    subst hnow
    obtain ⟨hadvances, hbacks⟩ := h.runs hstage hstage' hdoes hle
      (hcases.imp_right fun ⟨s, hreport, _, heq⟩ ↦ ⟨s, hreport, heq⟩)
    exact ⟨hadvances, hsame.trans hregistered, hbacks⟩
  | ends _ _ _ hgone hentries =>
    -- A connection that is over has taken the session out.
    obtain ⟨e, hmem, -, hsession⟩ := Registry.exists_entry_of_lookup hx'
    rw [hentries, List.mem_filter, hsession, hgone id hregistered] at hmem
    nomatch hmem.2

private theorem exists_of_registers {r r' : Registry} {report : Option Snapshot} {id : SessionId}
    (hdeed : Host.Deed r c now report r' c') (hbefore : c.registered ≠ some id)
    (hafter : c'.registered = some id) : ∃ x, r'.lookup id = some x ∧ c'.Backs now x := by
  cases hdeed with
  | negotiates _ hstage' henters =>
    cases henters with
    | keeps hsame => exact (hbefore (hsame.symm.trans hafter)).elim
    | registers _ hregistered hunused hentries =>
      obtain rfl := Option.some.inj (hregistered.symm.trans hafter)
      refine ⟨_, (Registry.lookup_of_entries hentries _).trans
        (Registry.lookup_added_self hunused _ _), ?_⟩
      simp [Backs, hstage', Record.start]
  | begins _ _ _ hsame | runs _ _ _ _ hsame | ends _ _ hsame =>
    exact (hbefore (hsame.symm.trans hafter)).elim

end Connection.Backs

/-! ## A server and others -/

/-- A server whose registry is used by others, too. -/
structure SharedHost where
  host : Host
  /-- The reservations that others hold. -/
  held : List Nat
  /-- How many reservations others have been handed. -/
  given : Nat

namespace SharedHost

/-- What can happen at a server and its registry. -/
inductive Act where
  | host (a : Server.Act)
  /-- Somebody else asks the registry. -/
  | ask (a : Ledger.Act)

def registry (s : SharedHost) : Registry := s.host.registry

/-- What others see of it. -/
def ledger (s : SharedHost) : Ledger := ⟨s.registry, s.held, s.given⟩

/-- A server that has accepted nothing, and others that have asked for nothing. -/
def new (own : Hello) (checker : Checker) (inject : Injector) (tuning : Tuning) (entropy : Entropy)
    (maxClients : Nat) : SharedHost :=
  ⟨.new own checker inject tuning entropy maxClients, [], 0⟩

/-- The server after others have changed its registry to this one. -/
def resume (h : Host) (r : Registry) : Host :=
  if r.active = h.registry.active then { h with registry := r } else { h with registry := r }.report

/-- The server and the others after an act. -/
def act (s : SharedHost) : Act → SharedHost
  | .host a => { s with host := s.host.act a }
  | .ask a =>
    let l := (s.ledger.act a).2
    ⟨resume s.host l.registry, l.held, l.given⟩

/-- The server and the others after these acts. -/
def perform (s : SharedHost) (acts : List Act) : SharedHost := acts.foldl act s

/-- The report that an act brings to the registry. -/
def report? (s : SharedHost) : Act → Option Snapshot
  | .host a => s.host.report? a
  | .ask a => a.report?

/-- The instant at which the connection with this index moves. -/
def Act.moment? (i : Nat) : Act → Option Instant
  | .host (.move j now _) => if j = i then some now else none
  | _ => none

theorem perform_append (s : SharedHost) (before after : List Act) :
    s.perform (before ++ after) = (s.perform before).perform after := List.foldl_append

private theorem resume_eq (h : Host) (r : Registry) : (resume h r).registry = r ∧
    (resume h r).connections = h.connections ∧ (resume h r).outlets = h.outlets := by
  unfold resume
  split <;> exact ⟨rfl, rfl, rfl⟩

/-! ### What an act is -/

variable {s s' : SharedHost} {a : Act} {i : Nat} {id : SessionId} {t : Instant} {x : Record}

/-- A connection has the outlet with its own index, and keeps to what it holds. -/
structure Kept (s : SharedHost) : Prop where
  length_eq : s.host.outlets.length = s.host.connections.length
  own : ∀ (i : Nat) (c : Connection), s.host.connections[i]? = some c → c.outlet = i
  keeps : ∀ c ∈ s.host.connections, c.Keeps

/-- What an act can be for the connections and for the registry. -/
inductive Turns (s : SharedHost) : Act → SharedHost → Prop where
  | accepts {now : Instant} {s' : SharedHost} {c : Connection}
      (hconnections : s'.host.connections = s.host.connections ++ [c])
      (houtlet : c.outlet = s.host.outlets.length)
      (hlength : s'.host.outlets.length = s.host.outlets.length + 1)
      (hkeeps : c.Keeps) (hfirst : c.registered = none) (hregistry : s'.registry = s.registry) :
      Turns s (.host (.accept now)) s'
  | moves {i : Nat} {now : Instant} {e : Endpoint} {s' : SharedHost} {c c' : Connection}
      (hacts : s.host.Acts i now (s.host.report? (.move i now e)) s'.host c c')
      (hopen : c.result? = none) (hkeeps : ∀ c ∈ s'.host.connections, c.Keeps) :
      Turns s (.host (.move i now e)) s'
  /-- No connection is concerned. -/
  | passes {a : Act} {s' : SharedHost} (hconnections : s'.host.connections = s.host.connections)
      (hlength : s'.host.outlets.length = s.host.outlets.length)
      (hamends : s.registry.Amends (s.report? a) s'.registry)
      (hreport : ∀ r, s.report? a = some r → a = .ask (.update r)) : Turns s a s'

theorem turns_of_reaches (hreaches : s.host.Reaches s'.host) (hreport : s.report? a = none) :
    s.Turns a s' := by
  refine .passes hreaches.connections_eq hreaches.length_eq ?_ (by simp [hreport])
  rw [hreport]
  exact .keeps (congrArg _ hreaches.registry_eq)

private theorem turns_ask (s : SharedHost) (a : Ledger.Act) :
    s.Turns (.ask a) (s.act (.ask a)) := by
  obtain ⟨hregistry, hconnections, houtlets⟩ := resume_eq s.host (s.ledger.act a).2.registry
  refine .passes hconnections (congrArg _ houtlets) ?_ fun r hreport ↦ ?_
  · have hamends := s.ledger.amends_act a
    rwa [← hregistry] at hamends
  · cases a with
    | update r' => exact congrArg (Act.ask ∘ Ledger.Act.update) (Option.some.inj hreport)
    | _ => nomatch hreport

theorem Kept.turns_act (h : s.Kept) (a : Act) : s.Turns a (s.act a) := by
  cases a with
  | ask a => exact s.turns_ask a
  | host a =>
    cases a with
    | accept now =>
      exact .accepts rfl rfl (by simp [act, Host.act, Host.accept])
        ⟨.nothing, Handshake.Conduct.stands_start .., rfl, rfl⟩ rfl rfl
    | move i now e =>
      cases hstep : s.host.step i now e with
      | none =>
        have hsame : s.act (.host (.move i now e)) = s := by simp [act, Host.act, hstep]
        rw [hsame]
        exact turns_of_reaches (.refl _) (Host.report?_of_step_eq_none hstep)
      | some moved =>
        have hmoved : (s.act (.host (.move i now e))).host = moved.1 := by
          simp [act, Host.act, hstep]
        obtain ⟨c, c', hacts⟩ := Host.acts_of_step h.keeps hstep
        obtain ⟨d, d', hdeals⟩ := Host.deals_of_own h.own h.keeps hstep
        rw [← hmoved] at hacts hdeals
        obtain rfl := Option.some.inj (hdeals.connection.symm.trans hacts.connection)
        exact .moves hacts hdeals.underWay (hdeals.keeps_all h.keeps)
    | close id reason => exact turns_of_reaches (Host.reaches_act_close id reason) rfl
    | shutdown => exact turns_of_reaches (Host.reaches_shutdown _) rfl
    | focus id => exact turns_of_reaches (Host.reaches_focus id) rfl
    | hand key id e => exact turns_of_reaches (Host.reaches_hand key id e) rfl

private theorem kept_new (own : Hello) (checker : Checker) (inject : Injector) (tuning : Tuning)
    (entropy : Entropy) (maxClients : Nat) :
    (new own checker inject tuning entropy maxClients).Kept where
  length_eq := rfl
  own _ _ hc := nomatch hc
  keeps _ hc := nomatch hc

theorem Kept.act (h : s.Kept) (a : Act) : (s.act a).Kept := by
  have hturns := h.turns_act a
  generalize s.act a = s' at hturns
  cases hturns with
  | accepts hconnections houtlet hlength hkeeps =>
    refine ⟨?_, fun j d hd ↦ ?_, fun d hd ↦ ?_⟩
    · rw [hlength, hconnections, List.length_append, h.length_eq, List.length_singleton]
    · rw [hconnections] at hd
      rcases Host.getElem?_concat hd with hd | ⟨rfl, rfl⟩
      · exact h.own j d hd
      · exact houtlet.trans h.length_eq
    · rw [hconnections] at hd
      rcases List.mem_append.mp hd with hd | hd
      · exact h.keeps d hd
      · exact List.mem_singleton.mp hd ▸ hkeeps
  | @moves i _ _ _ c c' hacts _ hkeeps =>
    refine ⟨?_, fun j d hd ↦ ?_, hkeeps⟩
    · rw [hacts.length_eq, hacts.connections_eq, List.length_set, h.length_eq]
    · rcases hacts.connection_cases hd with ⟨rfl, rfl⟩ | hd
      · exact hacts.outlet_eq.trans (h.own j c hacts.connection)
      · exact h.own j d hd
  | passes hconnections hlength =>
    exact ⟨by rw [hlength, hconnections, h.length_eq], hconnections ▸ h.own,
      hconnections ▸ h.keeps⟩

theorem Kept.perform (h : s.Kept) (acts : List Act) : (s.perform acts).Kept := by
  induction acts generalizing s with
  | nil => exact h
  | cons a acts ih => exact ih (h.act a)

/-! ### Reports -/

theorem Turns.amends (h : s.Turns a s') : s.registry.Amends (s.report? a) s'.registry := by
  cases h with
  | accepts _ _ _ _ _ hregistry => exact .keeps (congrArg _ hregistry)
  | moves hacts => exact hacts.deed.amends
  | passes _ _ hamends => exact hamends

private theorem Kept.registry_act_of_report (h : s.Kept) {r : Snapshot}
    (hreport : s.report? a = some r) : (s.act a).registry = s.registry.update r := by
  have hamends := (h.turns_act a).amends
  rw [hreport] at hamends
  exact hamends.eq_update

/-- A connection reports about the session that it has registered, while it is served. -/
theorem Kept.report_registered (h : s.Kept) {now : Instant} {e : Endpoint} {r : Snapshot}
    (hreport : s.report? (.host (.move i now e)) = some r) :
    ∃ c, s.host.connections[i]? = some c ∧ c.Serves r.session := by
  have hturns := h.turns_act (.host (.move i now e))
  generalize s.act (.host (.move i now e)) = s' at hturns
  cases hturns with
  | passes _ _ _ hask => cases hask r hreport
  | moves hacts hopen =>
    have hkeeps := h.keeps _ (List.mem_of_getElem? hacts.connection)
    exact ⟨_, hacts.connection, hacts.deed.registered_eq_of_report hkeeps hreport, hopen⟩

theorem Turns.measured (h : s.Turns a s') {x' : Record} (hx : s.registry.lookup id = some x)
    (hx' : s'.registry.lookup id = some x') (hmeasured : x.lastRtt.isSome) : x'.lastRtt.isSome := by
  rcases h.amends.lookup_cases hx hx' with rfl | ⟨r, -, -, rfl⟩
  · exact hmeasured
  · exact Record.lastRtt_apply r hmeasured

/-- **A round trip is not forgotten** as long as the session stays registered. -/
theorem Kept.measured (h : s.Kept) (acts : List Act)
    (hstays : ∀ p, p <+: acts → ((s.perform p).registry.lookup id).isSome)
    (hx : s.registry.lookup id = some x) (hmeasured : x.lastRtt.isSome) :
    ∃ x', (s.perform acts).registry.lookup id = some x' ∧ x'.lastRtt.isSome := by
  induction acts generalizing s x with
  | nil => exact ⟨x, hx, hmeasured⟩
  | cons a acts ih =>
    obtain ⟨x₁, hx₁⟩ := Option.isSome_iff_exists.mp (hstays [a] ⟨acts, rfl⟩)
    exact ih (h.act a) (fun p hp ↦ hstays (a :: p) (List.cons_prefix_cons.mpr ⟨rfl, hp⟩)) hx₁
      ((h.turns_act a).measured hx hx₁ hmeasured)

/-! ### The record of a session -/

/-- The record of a session says no more than its connection could say, and no other connection
that is still served speaks for the session. -/
structure Accurate (s : SharedHost) (i : Nat) (id : SessionId) (t : Instant) (x : Record) :
    Prop where
  lookup : s.registry.lookup id = some x
  backs : ∃ c, s.host.connections[i]? = some c ∧ c.registered = some id ∧ c.Backs t x
  only : ∀ (j : Nat) (c : Connection), s.host.connections[j]? = some c → c.Serves id → j = i

/-- The connection is as it was after an act that is none of its moves. -/
theorem Turns.connection_eq (h : s.Turns a s') (hothers : a.moment? i = none) {c : Connection}
    (hc : s.host.connections[i]? = some c) : s'.host.connections[i]? = some c := by
  cases h with
  | accepts hconnections =>
    obtain ⟨hlt, -⟩ := List.getElem?_eq_some_iff.mp hc
    rw [hconnections, List.getElem?_append_left hlt, hc]
  | @moves j _ _ _ _ _ hacts =>
    have hne : i ≠ j := by
      rintro rfl
      simp [Act.moment?] at hothers
    rw [hacts.others hne, hc]
  | passes hconnections => rw [hconnections, hc]

/-- A name that is in use is given to nobody. -/
theorem Turns.only (h : s.Turns a s') (hused : s.registry.find? id ≠ none)
    (honly : ∀ (j : Nat) (c : Connection), s.host.connections[j]? = some c → c.Serves id → j = i) :
    ∀ (j : Nat) (c : Connection), s'.host.connections[j]? = some c → c.Serves id → j = i := by
  intro j d hd hserves
  cases h with
  | accepts hconnections _ _ _ hfirst =>
    rw [hconnections] at hd
    rcases Host.getElem?_concat hd with hd | ⟨-, rfl⟩
    · exact honly j d hd hserves
    · nomatch hfirst.symm.trans hserves.1
  | @moves _ _ _ _ c _ hacts hopen =>
    rcases hacts.connection_cases hd with ⟨rfl, rfl⟩ | hd
    · rcases hacts.deed.registered_cases with heq | ⟨other, hother, hunused⟩
      · exact honly j c hacts.connection ⟨heq.symm.trans hserves.1, hopen⟩
      · obtain rfl := Option.some.inj (hother.symm.trans hserves.1)
        exact (hused hunused).elim
    · exact honly j d hd hserves
  | passes hconnections => exact honly j d (hconnections ▸ hd) hserves

/-- Nobody but the connection and those that ask reports about the session. -/
theorem Accurate.of_report (h : s.Accurate i id t x) (hkept : s.Kept) {r : Snapshot}
    (hreport : s.report? a = some r) (hsession : r.session = id) :
    (a.moment? i).isSome ∨ a = .ask (.update r) := by
  cases a with
  | ask a =>
    cases a with
    | update r' =>
      exact .inr (congrArg (Act.ask ∘ Ledger.Act.update) (Option.some.inj hreport))
    | _ => nomatch hreport
  | host a =>
    cases a with
    | move j now e =>
      obtain ⟨c, hc, hserves⟩ := hkept.report_registered hreport
      obtain rfl := h.only j c hc (hsession ▸ hserves)
      simp [Act.moment?]
    | _ => nomatch hreport

theorem Accurate.used (h : s.Accurate i id t x) : s.registry.find? id ≠ none := by
  intro hnone
  have hlookup := h.lookup
  simp [Registry.lookup, hnone] at hlookup

/-- **An act gets the record on.** -/
theorem Accurate.act (h : s.Accurate i id t x) (hkept : s.Kept)
    (htime : ∀ now, a.moment? i = some now → t ≤ now)
    (hask : ∀ r, a = .ask (.update r) → r.session ≠ id)
    (hstays : ((s.act a).registry.lookup id).isSome) :
    ∃ x', x.Advances x' ∧ (s.act a).Accurate i id ((a.moment? i).getD t) x' := by
  obtain ⟨c, hc, hregistered, hbacks⟩ := h.backs
  obtain ⟨x', hx'⟩ := Option.isSome_iff_exists.mp hstays
  have hturns := hkept.turns_act a
  have honly := hturns.only h.used h.only
  cases hmoment : a.moment? i with
  | none =>
    obtain rfl : x' = x := by
      refine (hturns.amends.lookup_cases h.lookup hx').resolve_right ?_
      rintro ⟨r, hreport, hsession, -⟩
      rcases h.of_report hkept hreport hsession with hown | heq
      · simp [hmoment] at hown
      · exact hask r heq hsession
    exact ⟨x', .refl x', hx', ⟨c, hturns.connection_eq hmoment hc, hregistered, hbacks⟩, honly⟩
  | some now =>
    have hle := htime now hmoment
    rw [Option.getD_some]
    generalize s.act a = s' at hturns hx' honly
    cases hturns with
    | accepts => nomatch hmoment
    | @moves j now' _ _ d d' hacts =>
      obtain ⟨rfl, rfl⟩ : j = i ∧ now' = now := by simpa [Act.moment?] using hmoment
      obtain rfl := Option.some.inj (hc.symm.trans hacts.connection)
      obtain ⟨hadvances, hregistered', hbacks'⟩ :=
        hbacks.deed hregistered hacts.deed hle h.lookup hx'
      exact ⟨x', hadvances, hx', ⟨d', hacts.connection', hregistered', hbacks'⟩, honly⟩
    | passes hconnections _ hamends hreport =>
      -- The connection could not move.
      obtain rfl : x' = x := by
        refine (hamends.lookup_cases h.lookup hx').resolve_right ?_
        rintro ⟨r, hr, -⟩
        rw [hreport r hr] at hmoment
        nomatch hmoment
      exact ⟨x', .refl x', hx', ⟨c, hconnections ▸ hc, hregistered, hbacks.mono hle⟩, honly⟩

/-- The connection with this index has registered the session by this act, and it has stayed
registered during the acts since. The clock of the connection does not go back. -/
structure Tenancy (start : SharedHost) (before : List Act) (a : Act) (since : List Act) (i : Nat)
    (id : SessionId) : Prop where
  unnamed : ∀ c, (start.perform before).host.connections[i]? = some c → ¬ c.Serves id
  registers : ∃ c, ((start.perform before).act a).host.connections[i]? = some c ∧ c.Serves id
  stays : ∀ p, p <+: since → ((start.perform (before ++ a :: p)).registry.lookup id).isSome
  clock : ((a :: since).filterMap (Act.moment? i)).Pairwise (· ≤ ·)

instance (start : SharedHost) (before : List Act) (a : Act) (since : List Act) (i : Nat)
    (id : SessionId) : Decidable (start.Tenancy before a since i id) :=
  decidable_of_iff
    ((start.perform before).host.connections[i]?.all (decide <| ¬ ·.Serves id) ∧
      ((start.perform before).act a).host.connections[i]?.any (decide <| ·.Serves id) ∧
      (∀ p ∈ since.inits, ((start.perform (before ++ a :: p)).registry.lookup id).isSome) ∧
      ((a :: since).filterMap (Act.moment? i)).Pairwise (· ≤ ·))
    (by simp only [Option.all_eq_true, Option.any_eq_true, List.mem_inits, decide_eq_true_eq]
        exact ⟨fun ⟨hunnamed, hregisters, hstays, hclock⟩ ↦ ⟨hunnamed, hregisters, hstays, hclock⟩,
          fun h ↦ ⟨h.unnamed, h.registers, h.stays, h.clock⟩⟩)

/-- The name of the session is not that of a connection that is still served, and nobody else
reports about the session. -/
structure Undisturbed (start : SharedHost) (before since : List Act) (id : SessionId) : Prop where
  fresh : ∀ c ∈ (start.perform before).host.connections, ¬ c.Serves id
  alone : ∀ r, .ask (.update r) ∈ since → r.session ≠ id

private theorem accurate_of_registers (hkept : s.Kept)
    (hfresh : ∀ c ∈ s.host.connections, ¬ c.Serves id) {c : Connection}
    (hc : (s.act a).host.connections[i]? = some c) (hserves : c.Serves id) :
    ∃ now x, a.moment? i = some now ∧ (s.act a).Accurate i id now x := by
  have hturns := hkept.turns_act a
  generalize s.act a = s' at hturns hc
  cases hturns with
  | accepts hconnections _ _ _ hfirst =>
    rw [hconnections] at hc
    rcases Host.getElem?_concat hc with hold | ⟨-, rfl⟩
    · exact (hfresh c (List.mem_of_getElem? hold) hserves).elim
    · nomatch hfirst.symm.trans hserves.1
  | passes hconnections =>
    rw [hconnections] at hc
    exact (hfresh c (List.mem_of_getElem? hc) hserves).elim
  | @moves j now _ _ d d' hacts hopen =>
    -- Whoever did not move does not have the name.
    have honly : ∀ (k : Nat) (b : Connection), s'.host.connections[k]? = some b →
        b.Serves id → k = j := by
      intro k b hb hname
      by_contra hne
      rw [hacts.others hne] at hb
      exact hfresh b (List.mem_of_getElem? hb) hname
    obtain rfl := honly i c hc hserves
    obtain rfl := Option.some.inj (hc.symm.trans hacts.connection')
    obtain ⟨x, hx, hbacks⟩ := Connection.Backs.exists_of_registers hacts.deed
      (fun hold ↦ hfresh d (List.mem_of_getElem? hacts.connection) ⟨hold, hopen⟩) hserves.1
    exact ⟨now, x, by simp [Act.moment?], hx, ⟨c, hc, hserves.1, hbacks⟩, honly⟩

/-- The clock of the connection with this index shows nothing earlier than this during the acts, and
does not go back. -/
def Clocked (i : Nat) (t : Instant) (acts : List Act) : Prop :=
  (t :: acts.filterMap (Act.moment? i)).Pairwise (· ≤ ·)

private theorem clocked_cons {acts : List Act} (h : Clocked i t (a :: acts)) :
    (∀ now, a.moment? i = some now → t ≤ now) ∧ Clocked i ((a.moment? i).getD t) acts := by
  unfold Clocked at h ⊢
  rw [List.filterMap_cons] at h
  cases hmoment : a.moment? i with
  | none =>
    rw [hmoment] at h
    exact ⟨nofun, h⟩
  | some now =>
    rw [hmoment] at h
    obtain ⟨hfirst, hrest⟩ := List.pairwise_cons.mp h
    exact ⟨fun now' hnow ↦ hfirst now' (Option.some.inj hnow ▸ List.mem_cons_self), hrest⟩

/-- **The record gets on** as long as the session stays registered. -/
theorem Accurate.perform (h : s.Accurate i id t x) (hkept : s.Kept) (acts later : List Act)
    (hstays : ∀ p, p <+: acts → ((s.perform p).registry.lookup id).isSome)
    (hask : ∀ r, .ask (.update r) ∈ acts → r.session ≠ id) (hclock : Clocked i t (acts ++ later)) :
    ∃ t' x', x.Advances x' ∧ (s.perform acts).Accurate i id t' x' ∧ Clocked i t' later := by
  induction acts generalizing s t x with
  | nil => exact ⟨t, x, .refl x, h, hclock⟩
  | cons a acts ih =>
    obtain ⟨hfirst, hrest⟩ := clocked_cons hclock
    obtain ⟨x₁, hadvances, h₁⟩ := h.act (a := a) hkept hfirst
      (fun r hr ↦ hask r (hr ▸ List.mem_cons_self)) (hstays [a] ⟨acts, rfl⟩)
    obtain ⟨t', x', hadvances', h'⟩ := ih h₁ (hkept.act a)
      (fun p hp ↦ hstays (a :: p) (List.cons_prefix_cons.mpr ⟨rfl, hp⟩))
      (fun r hr ↦ hask r (List.mem_cons_of_mem a hr)) hrest
    exact ⟨t', x', hadvances.trans hadvances', h'⟩

/-- During a tenancy that is undisturbed there is a record, and it gets on from any moment to any
later one. -/
theorem Tenancy.exists_accurate {start : SharedHost} {before p q : List Act} (hstart : start.Kept)
    (h : start.Tenancy before a (p ++ q) i id)
    (hundisturbed : start.Undisturbed before (p ++ q) id) : ∃ t x t' x',
      (start.perform (before ++ a :: p)).Accurate i id t x ∧
        (start.perform (before ++ a :: (p ++ q))).Accurate i id t' x' ∧ x.Advances x' := by
  have hkept := hstart.perform before
  obtain ⟨c, hc, hserves⟩ := h.registers
  obtain ⟨now, x₀, hmoment, h₀⟩ := accurate_of_registers hkept hundisturbed.fresh hc hserves
  have hclock : Clocked i now (p ++ q) := by
    have hclock := h.clock
    rwa [List.filterMap_cons, hmoment] at hclock
  have hperform (r : List Act) : start.perform (before ++ a :: r) =
      ((start.perform before).act a).perform r := perform_append ..
  have hstays : ∀ r, r <+: p ++ q →
      ((((start.perform before).act a).perform r).registry.lookup id).isSome := fun r hr ↦
    hperform r ▸ h.stays r hr
  -- First to the earlier moment, then from there to the later one.
  obtain ⟨t, x, -, hx, hclock⟩ := h₀.perform (hkept.act a) p q
    (fun r hr ↦ hstays r (hr.trans (List.prefix_append p q)))
    (fun r hr ↦ hundisturbed.alone r (List.mem_append_left q hr)) hclock
  rw [← List.append_nil q] at hclock
  obtain ⟨t', x', hadvances, hx', -⟩ := hx.perform ((hkept.act a).perform p) q []
    (fun r hr ↦ perform_append _ p r ▸ hstays _ ((List.prefix_append_right_inj p).mpr hr))
    (fun r hr ↦ hundisturbed.alone r (List.mem_append_right p hr)) hclock
  rw [← perform_append, ← hperform] at hx'
  rw [← hperform] at hx
  exact ⟨t, x, t', x', hx, hx', hadvances⟩

namespace Act

/-- A connection has these bytes to read. -/
def reads (i : Nat) (now : Instant) (b : Bytes) : Act :=
  .host (.move i now ⟨⟨1024, b, false⟩, .new 1024⟩)

/-- The first connection reads an answer to a heartbeat, and takes note of it. -/
def acks (id : SessionId) (now : Instant) (seq : UInt32) (token : UInt64) : List Act :=
  let frame := ((Link.new 1 1024).bind id).frameOf seq (.heartbeatAck token)
  [reads 0 now ((frame.map (·.rest)).toOption.getD []), reads 0 now []]

end Act

/-- **Records never go back.** From the moment at which a connection has registered its session, as
long as the session has stayed registered since and is undisturbed: its record counts no less and
was heard of no earlier than at any moment before, and its numbers are not above those of the
connection's own link. Whatever others do, and whatever they report: a round trip stays as long as
the session stays registered, a report changes no other record, and if it finds no session under its
name it changes nothing at all; a connection reports about the session that it has registered. -/
theorem records_never_go_back (own : Hello) (checker : Checker) (inject : Injector)
    (tuning : Tuning) (entropy : Entropy) (maxClients : Nat) (acts : List Act) :
    let start := new own checker inject tuning entropy maxClients
    let s := start.perform acts
    (∀ before a p q i id, acts = before ++ a :: (p ++ q) → start.Tenancy before a (p ++ q) i id →
      start.Undisturbed before (p ++ q) id →
      ∃ x x' c l, (start.perform (before ++ a :: p)).registry.lookup id = some x ∧
        s.registry.lookup id = some x' ∧ x.Advances x' ∧
        s.host.connections[i]? = some c ∧ c.link? = some l ∧
        x'.outboundSeq ≤ l.outbound.last ∧ x'.inboundSeq ≤ l.inbound.lastSeen) ∧
    (∀ before since id x, acts = before ++ since →
      (∀ p, p <+: since → ((start.perform (before ++ p)).registry.lookup id).isSome) →
      (start.perform before).registry.lookup id = some x → x.lastRtt.isSome →
      ∃ x', s.registry.lookup id = some x' ∧ x'.lastRtt.isSome) ∧
    (∀ a r, s.report? a = some r →
      (∀ id, id ≠ r.session → (s.act a).registry.lookup id = s.registry.lookup id) ∧
      (s.registry.lookup r.session = none → (s.act a).registry = s.registry) ∧
      (∀ i now e, a = .host (.move i now e) →
        ∃ c, s.host.connections[i]? = some c ∧ c.registered = some r.session)) ∧
    ∀ a id x, s.registry.lookup id = none → (s.act a).registry.lookup id = some x →
      ∃ peer version now, x = .start id peer version now := by
  intro start s
  have hstart : start.Kept := kept_new ..
  have hkept : s.Kept := hstart.perform acts
  refine ⟨?_, ?_, fun a r hreport ↦ ?_, fun a id x ↦ (hkept.turns_act a).amends.eq_start⟩
  · rintro before a p q i id rfl htenancy hundisturbed
    obtain ⟨t, x, t', x', hx, hx', hadvances⟩ := htenancy.exists_accurate hstart hundisturbed
    obtain ⟨c, hc, -, hbacks⟩ := hx'.backs
    obtain ⟨l, hl, houtbound, hinbound⟩ := hbacks.exists_link
    exact ⟨x, x', c, l, hx.lookup, hx'.lookup, hadvances, hc, hl, houtbound, hinbound⟩
  · rintro before since id x rfl hstays hx hmeasured
    have hperform : s = (start.perform before).perform since := perform_append ..
    rw [hperform]
    exact (hstart.perform before).measured since
      (fun p hp ↦ perform_append start before p ▸ hstays p hp) hx hmeasured
  · rw [hkept.registry_act_of_report hreport]
    refine ⟨fun id hne ↦ Registry.lookup_update_of_ne hne, Registry.update_of_lookup_eq_none, ?_⟩
    rintro i now e rfl
    obtain ⟨c, hc, hregistered, -⟩ := hkept.report_registered hreport
    exact ⟨c, hc, hregistered⟩

/-- The peer answers the first heartbeat, which is measured, and then one that was never sent. The
session is removed from outside, and one more answer comes. -/
theorem records_never_go_back_and_stay_away :
    let id : SessionId := ⟨⟨List.replicate 16 7, rfl⟩⟩
    let start : SharedHost := ⟨.lenient 8, [], 0⟩
    let second := 1000000000
    let before : List Act := (Server.Act.greeting ++ Server.Act.answering.take 2).map .host
    let a : Act := .reads 0 0 []
    let p : List Act := Server.Act.beginning.map .host ++ List.replicate 3 (.reads 0 second []) ++
      Act.acks id (second + 5) 3 1
    let q : List Act := Act.acks id (second + 7) 4 9
    let later : List Act :=
      .ask (.remove id) :: .reads 0 (second + 8) [] :: (Act.acks id (second + 9) 5 1).take 1
    let gone := start.perform (before ++ a :: (p ++ q) ++ later)
    start.Tenancy before a (p ++ q) 0 id ∧ start.Undisturbed before (p ++ q) id ∧
      (∃ x x', (start.perform (before ++ a :: p)).registry.lookup id = some x ∧
        (start.perform (before ++ a :: (p ++ q))).registry.lookup id = some x' ∧ x.Advances x' ∧
        (x.inboundSeq, x.lastRtt) = (3, some 5) ∧ (x'.inboundSeq, x'.lastRtt) = (4, some 5)) ∧
      gone.report? (.reads 0 (second + 9) []) = some ⟨id, second + 9, none, 4, 5⟩ ∧
      (gone.act (.reads 0 (second + 9) [])).registry = gone.registry := by
  intro id start second before a p q later gone
  have htenancy : start.Tenancy before a (p ++ q) 0 id := by decide +kernel
  have hundisturbed : start.Undisturbed before (p ++ q) id := by
    refine ⟨by decide +kernel, fun r hr ↦ ?_⟩
    simp [p, q, Act.acks, Act.reads, Server.Act.beginning, Server.Act.goesOn] at hr
  have hreport : gone.report? (.reads 0 (second + 9) []) =
      some ⟨id, second + 9, none, 4, 5⟩ := by decide +kernel
  obtain ⟨hrecord, -, -, -⟩ := records_never_go_back _ _ _ _ _ 1 (before ++ a :: (p ++ q))
  obtain ⟨x, x', c, l, hx, hx', hadvances, -, -, -, -⟩ :=
    hrecord before a p q 0 id rfl htenancy hundisturbed
  obtain ⟨-, -, hreports, -⟩ :=
    records_never_go_back _ _ _ _ _ 1 (before ++ a :: (p ++ q) ++ later)
  obtain ⟨-, hgone, -⟩ := hreports (.reads 0 (second + 9) []) _ hreport
  have hread : ((start.perform (before ++ a :: p)).registry.lookup id).map
      (fun x ↦ (x.inboundSeq, x.lastRtt)) = some (3, some 5) := by decide +kernel
  have hread' : ((start.perform (before ++ a :: (p ++ q))).registry.lookup id).map
      (fun x ↦ (x.inboundSeq, x.lastRtt)) = some (4, some 5) := by decide +kernel
  change (start.perform (before ++ a :: p)).registry.lookup id = some x at hx
  change (start.perform (before ++ a :: (p ++ q))).registry.lookup id = some x' at hx'
  rw [hx] at hread
  rw [hx'] at hread'
  exact ⟨htenancy, hundisturbed,
    ⟨x, x', hx, hx', hadvances, Option.some.inj hread, Option.some.inj hread'⟩, hreport,
    hgone (by decide +kernel)⟩

/-- Somebody else reports lower numbers about the session, and its record goes back; with higher
ones it is ahead of the link. If the session is removed and its name is drawn again while its
connection is still served, then that connection reports about the new session, too, and the record
of that one is ahead of its link. -/
theorem records_go_back :
    let id : SessionId := ⟨⟨List.replicate 16 7, rfl⟩⟩
    let start : SharedHost := ⟨.lenient 8, [], 0⟩
    let second := 1000000000
    let numbers (acts : List Act) := ((start.perform acts).registry.lookup id).map fun x ↦
      (x.outboundSeq, x.inboundSeq, x.lastHeartbeatAt)
    let counters (acts : List Act) (i : Nat) :=
      ((start.perform acts).host.connections[i]?.bind (·.link?)).map fun l ↦
        (l.outbound.last, l.inbound.lastSeen)
    let before : List Act := (Server.Act.greeting ++ Server.Act.answering.take 2).map .host
    let a : Act := .reads 0 0 []
    let p : List Act := Server.Act.beginning.map .host ++ List.replicate 3 (.reads 0 second []) ++
      Act.acks id (second + 5) 3 1
    let told (n : UInt32) : List Act := [.ask (.update ⟨id, 0, none, n, n⟩)]
    let again := (Server.Act.greeting ++ Server.Act.answering.take 2).map fun
      | .move _ now e => Act.host (.move 1 now e)
      | other => .host other
    let before' := before ++ a :: p ++ [.ask (.remove id), .reads 0 (second + 6) []] ++ again
    let a' : Act := .reads 1 0 []
    let q : List Act := Act.acks id (second + 7) 4 9
    (start.Tenancy before a (p ++ told 0) 0 id ∧
      numbers (before ++ a :: p) = some (4, 3, second + 5) ∧
      numbers (before ++ a :: (p ++ told 0)) = some (0, 0, 0)) ∧
    (start.Tenancy before a (p ++ told 9) 0 id ∧
      numbers (before ++ a :: (p ++ told 9)) = some (9, 9, 0) ∧
      counters (before ++ a :: (p ++ told 9)) 0 = some (4, 3)) ∧
    start.Tenancy before' a' q 1 id ∧
      numbers (before' ++ a' :: q) = some (4, 4, second + 5) ∧
      counters (before' ++ a' :: q) 1 = some (2, 2) := by
  decide +kernel

end SharedHost

end DeskLink.Server
