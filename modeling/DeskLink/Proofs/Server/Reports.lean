import DeskLink.Proofs.Server.Chronicle
import DeskLink.Proofs.Server.Tenancy
import DeskLink.Proofs.Session.Progress

/-!
# What reports do to the records

A registry can be changed in four ways, and only one of them concerns the records that are there: a
report is folded into the record of its session, if there is one (`Registry.Amends`). So a session
that stays registered has the record that it had, or that with a report about it
(`Registry.Amends.lookup_cases`), and a report that finds no session leaves no trace.

What a move of a connection is for the registry is told together with what it is for the connection,
since a report says where the session of that connection stands (`Host.Deed`).
-/

namespace DeskLink

/-- From the first to the second, a record has not gone back. -/
structure Record.Advances (x x' : Record) : Prop where
  outboundSeq_le : x.outboundSeq ≤ x'.outboundSeq
  inboundSeq_le : x.inboundSeq ≤ x'.inboundSeq
  lastHeartbeatAt_le : x.lastHeartbeatAt ≤ x'.lastHeartbeatAt
  lastRtt : x.lastRtt.isSome → x'.lastRtt.isSome

theorem Record.Advances.refl (x : Record) : x.Advances x :=
  ⟨UInt32.le_refl _, UInt32.le_refl _, Nat.le_refl _, id⟩

theorem Record.Advances.trans {x x' x'' : Record} (h : x.Advances x') (h' : x'.Advances x'') :
    x.Advances x'' where
  outboundSeq_le := UInt32.le_trans h.outboundSeq_le h'.outboundSeq_le
  inboundSeq_le := UInt32.le_trans h.inboundSeq_le h'.inboundSeq_le
  lastHeartbeatAt_le := Nat.le_trans h.lastHeartbeatAt_le h'.lastHeartbeatAt_le
  lastRtt := h'.lastRtt ∘ h.lastRtt

theorem Record.lastRtt_apply {x : Record} (s : Snapshot) (hsome : x.lastRtt.isSome) :
    (x.apply s).lastRtt.isSome := by
  change (s.rtt <|> x.lastRtt).isSome = true
  cases s.rtt with
  | none => exact hsome
  | some d => rfl

theorem Record.advances_apply {x : Record} {s : Snapshot}
    (houtbound : x.outboundSeq ≤ s.outboundSeq) (hinbound : x.inboundSeq ≤ s.inboundSeq)
    (htime : x.lastHeartbeatAt ≤ s.time) : x.Advances (x.apply s) :=
  ⟨houtbound, hinbound, htime, Record.lastRtt_apply s⟩

namespace Server

/-! ## The registry -/

namespace Registry

variable {r r' : Registry} {id : SessionId} {x x' : Record} {report : Option Snapshot}

private theorem lookup_eq_none : r.lookup id = none ↔ id ∉ r.names := by
  rw [lookup, Option.map_eq_none_iff, find?_eq_none]

theorem exists_entry_of_lookup (h : r.lookup id = some x) :
    ∃ e ∈ r.entries, e.record = x ∧ e.record.session = id := by
  obtain ⟨e, he, hx⟩ := Option.map_eq_some_iff.mp h
  exact ⟨e, List.mem_of_find?_eq_some he, hx, by simpa using List.find?_some he⟩

theorem find?_update (r : Registry) (s : Snapshot) (id : SessionId) :
    (r.update s).find? id = (r.find? id).map fun e ↦
      if e.record.session = s.session then { e with record := e.record.apply s } else e := by
  rw [find?, update, List.find?_map]
  refine congrArg (Option.map _) (congrFun (congrArg List.find? (funext fun e ↦ ?_)) _)
  simp only [Function.comp_apply]
  split <;> rfl

theorem lookup_update_of_ne {s : Snapshot} (hne : id ≠ s.session) :
    (r.update s).lookup id = r.lookup id := by
  rw [lookup, lookup, find?_update]
  cases hfind : r.find? id with
  | none => rfl
  | some e =>
    have hsession : e.record.session = id := by simpa using List.find?_some hfind
    simp [hsession, hne]

theorem lookup_update_self (r : Registry) (s : Snapshot) :
    (r.update s).lookup s.session = (r.lookup s.session).map (·.apply s) := by
  rw [lookup, lookup, find?_update]
  cases hfind : r.find? s.session with
  | none => rfl
  | some e =>
    have hsession : e.record.session = s.session := by simpa using List.find?_some hfind
    simp [hsession]

theorem update_of_lookup_eq_none {s : Snapshot} (h : r.lookup s.session = none) :
    r.update s = r := by
  have hentries : (r.update s).entries = r.entries := by
    refine (List.map_congr_left fun e he ↦ if_neg fun heq ↦ ?_).trans r.entries.map_id
    exact lookup_eq_none.mp h (List.mem_map.mpr ⟨e, he, heq⟩)
  exact congrArg (fun entries ↦ { r with entries }) hentries

theorem lookup_added_of_ne {other : SessionId} (hne : id ≠ other) (n : Newcomer) (now : Instant) :
    (r.added other n now).lookup id = r.lookup id := by
  have hlast : (Record.start other n.peer n.version now).session ≠ id := hne.symm
  simp [lookup, find?, added, List.find?_append, hlast]

theorem lookup_added_self (hunused : r.find? id = none) (n : Newcomer) (now : Instant) :
    (r.added id n now).lookup id = some (.start id n.peer n.version now) := by
  have hlast : (Record.start id n.peer n.version now).session = id := rfl
  rw [find?] at hunused
  simp [lookup, find?, added, List.find?_append, hunused, hlast]

theorem lookup_of_filter {keep : SessionId → Bool}
    (hentries : r'.entries = r.entries.filter fun e ↦ keep e.record.session)
    (hx : r'.lookup id = some x) : r.lookup id = some x := by
  obtain ⟨e, hmem, -, hsession⟩ := exists_entry_of_lookup hx
  have hkeep : keep id = true := by
    rw [hentries, List.mem_filter, hsession] at hmem
    exact hmem.2
  have hsame : (fun e : Entry ↦ decide (keep e.record.session = true ∧
      (e.record.session == id) = true)) = fun e ↦ e.record.session == id := by
    funext e
    by_cases heq : e.record.session = id <;> simp [heq, hkeep]
  rwa [lookup, find?, hentries, List.find?_filter, hsame, ← find?, ← lookup] at hx

/-- What can happen to a registry, and what is reported to it then. -/
inductive Amends (r : Registry) : Option Snapshot → Registry → Prop where
  | keeps {r' : Registry} (hentries : r'.entries = r.entries) : Amends r none r'
  | adds {r' : Registry} {id : SessionId} {n : Newcomer} {now : Instant}
      (hunused : r.find? id = none) (hentries : r'.entries = (r.added id n now).entries) :
      Amends r none r'
  | drops {r' : Registry} (keep : SessionId → Bool)
      (hentries : r'.entries = r.entries.filter fun e ↦ keep e.record.session) : Amends r none r'
  | reports (s : Snapshot) : Amends r (some s) (r.update s)

theorem lookup_of_entries (h : r'.entries = r.entries) (id : SessionId) :
    r'.lookup id = r.lookup id := by rw [lookup, lookup, find?, find?, h]

theorem Amends.eq_update {s : Snapshot} (h : r.Amends (some s) r') : r' = r.update s := by
  cases h with | reports => rfl

/-- **A session that stays registered** has its record, or that with a report about it. -/
theorem Amends.lookup_cases (h : r.Amends report r') (hx : r.lookup id = some x)
    (hx' : r'.lookup id = some x') :
    x' = x ∨ ∃ s, report = some s ∧ s.session = id ∧ x' = x.apply s := by
  cases h with
  | keeps hentries =>
    rw [lookup_of_entries hentries, hx] at hx'
    exact .inl (Option.some.inj hx').symm
  | @adds _ other n now hunused hentries =>
    have hne : id ≠ other := by
      rintro rfl
      rw [lookup, hunused] at hx
      nomatch hx
    rw [lookup_of_entries hentries, lookup_added_of_ne hne, hx] at hx'
    exact .inl (Option.some.inj hx').symm
  | drops keep hentries =>
    rw [lookup_of_filter hentries hx'] at hx
    exact .inl (Option.some.inj hx)
  | reports s =>
    by_cases hsame : id = s.session
    · subst hsame
      rw [lookup_update_self, hx] at hx'
      exact .inr ⟨s, rfl, rfl, (Option.some.inj hx').symm⟩
    · rw [lookup_update_of_ne hsame, hx] at hx'
      exact .inl (Option.some.inj hx').symm

/-- A name that is not in use comes back with the record of a new session, if at all. -/
theorem Amends.eq_start (h : r.Amends report r') (hunused : r.lookup id = none)
    (hx' : r'.lookup id = some x') : ∃ peer version now, x' = .start id peer version now := by
  cases h with
  | keeps hentries => nomatch hunused.symm.trans ((lookup_of_entries hentries id).symm.trans hx')
  | @adds _ other n now hfree hentries =>
    rw [lookup_of_entries hentries] at hx'
    by_cases hsame : id = other
    · subst hsame
      rw [lookup_added_self hfree] at hx'
      exact ⟨n.peer, n.version, now, (Option.some.inj hx').symm⟩
    · rw [lookup_added_of_ne hsame, hunused] at hx'
      nomatch hx'
  | drops keep hentries => nomatch hunused.symm.trans (lookup_of_filter hentries hx')
  | reports s =>
    by_cases hsame : id = s.session
    · subst hsame
      rw [lookup_update_self, hunused] at hx'
      nomatch hx'
    · rw [lookup_update_of_ne hsame, hunused] at hx'
      nomatch hx'

private theorem entries_vacated (r : Registry) (tenant : Option SessionId) (place : Bool) :
    (r.vacated tenant place).entries =
      r.entries.filter fun e ↦ tenant != some e.record.session := by
  have hplace : (r.vacated tenant place).entries = (r.vacated tenant false).entries := by
    cases place <;> rfl
  rw [hplace]
  cases tenant with
  | none => exact (List.filter_eq_self.mpr fun _ _ ↦ rfl).symm
  | some id =>
    refine List.filter_congr fun e _ ↦ ?_
    simp [bne, eq_comm]

end Registry

/-- Whatever is asked of a registry is one of these. -/
theorem Ledger.amends_act (l : Ledger) (a : Ledger.Act) :
    l.registry.Amends a.report? (l.act a).2.registry := by
  have hturns := l.turns_act a
  generalize (l.act a).1 = answer at hturns
  generalize hentries : (l.act a).2.registry.entries = entries at hturns
  cases hturns with
  | registers hnewcomer hunused =>
    have hreport : a.report? = none := by cases a <;> first | rfl | nomatch hnewcomer
    rw [hreport]
    exact .adds hunused hentries
  | removes id => exact .drops (· != id) hentries
  | updates s => exact .reports s
  | rests _ _ hreport =>
    rw [hreport]
    exact .keeps hentries

/-! ## A move of a connection -/

open Handshake (Conduct)
open Session (Worker Ending)

namespace Host

/-- The report that an act makes: that of the session of the connection that moves. -/
def report? (h : Host) : Act → Option Snapshot
  | .move i now e => do
    let c ← h.connections[i]?
    match c.stage with
    | .running w =>
      let out ← h.outletOf c w.session
      let (_, effect, _) ← w.move now h.inject out e
      effect.report?
    | _ => none
  | _ => none

/-- What a move of a handshake is for the connection and for the sessions in the registry. -/
inductive Enters (r : Registry) (c : Connection) (now : Instant) (r' : Registry)
    (c' : Connection) : Prop where
  | keeps (hregistered : c'.registered = c.registered) (hentries : r'.entries = r.entries)
  /-- The session is registered. -/
  | registers {id : SessionId} {n : Newcomer} (hfirst : c.registered = none)
      (hregistered : c'.registered = some id) (hunused : r.find? id = none)
      (hentries : r'.entries = (r.added id n now).entries)

/-- What a move is for the connection that makes it, for the registry and for its reports. -/
inductive Deed (r : Registry) (c : Connection) (now : Instant) :
    Option Snapshot → Registry → Connection → Prop where
  | negotiates {r' : Registry} {c' : Connection} {conduct conduct' : Conduct}
      (hstage : c.stage = .negotiating conduct) (hstage' : c'.stage = .negotiating conduct')
      (henters : Enters r c now r' c') : Deed r c now none r' c'
  | begins {c' : Connection} {conduct : Conduct} {w : Worker}
      (hstage : c.stage = .negotiating conduct) (hstage' : c'.stage = .running w)
      (hlastAck : w.monitor.lastAck = now) (hregistered : c'.registered = c.registered) :
      Deed r c now none r c'
  | runs {r' : Registry} {c' : Connection} {w w' : Worker} {o : Session.Offer}
      {effect : Session.Effect} (hstage : c.stage = .running w) (hstage' : c'.stage = .running w')
      (hnow : o.now = now) (hdoes : w.Does o w' effect) (hregistered : c'.registered = c.registered)
      (hamends : r.Amends effect.report? r') : Deed r c now effect.report? r' c'
  /-- The connection is over, and takes its session with it. -/
  | ends {r' : Registry} {c' : Connection} {e : Ending} (keep : SessionId → Bool)
      (hstage' : c'.stage = .ended e) (hregistered : c'.registered = c.registered)
      (hgone : ∀ id, c.registered = some id → keep id = false)
      (hentries : r'.entries = r.entries.filter fun e ↦ keep e.record.session) :
      Deed r c now none r' c'

variable {h h' : Host} {i : Nat} {c c' : Connection} {now : Instant} {e e' : Endpoint}
  {r r' : Registry} {report : Option Snapshot}

theorem Deed.amends (hdeed : Deed r c now report r' c') : r.Amends report r' := by
  cases hdeed with
  | negotiates _ _ henters =>
    cases henters with
    | keeps _ hentries => exact .keeps hentries
    | registers _ _ hunused hentries => exact .adds hunused hentries
  | begins => exact .keeps rfl
  | runs _ _ _ _ _ hamends => exact hamends
  | ends keep _ _ _ hentries => exact .drops keep hentries

/-- A connection has the session that it had, or is given a name that is not in use. -/
theorem Deed.registered_cases (hdeed : Deed r c now report r' c') :
    c'.registered = c.registered ∨ ∃ id, c'.registered = some id ∧ r.find? id = none := by
  cases hdeed with
  | negotiates _ _ henters =>
    cases henters with
    | keeps hregistered => exact .inl hregistered
    | registers _ hregistered hunused => exact .inr ⟨_, hregistered, hunused⟩
  | begins _ _ _ hregistered | runs _ _ _ _ hregistered | ends _ _ hregistered =>
    exact .inl hregistered

/-- A connection reports about the session that it has registered. -/
theorem Deed.registered_eq_of_report (hdeed : Deed r c now report r' c') (hkeeps : c.Keeps)
    {s : Snapshot} (hreport : report = some s) : c.registered = some s.session := by
  cases hdeed with
  | negotiates | begins | ends => nomatch hreport
  | runs hstage _ _ hdoes =>
    rw [Connection.Keeps, hstage] at hkeeps
    rw [hkeeps.2, Worker.report_of_does hdoes hreport]
    exact congrArg some (Worker.session_of_does hdoes).symm

/-- Of the connection, only the session that it has registered matters. -/
theorem Enters.of_registered_eq {c₁ : Connection} (henters : Enters r c now r' c₁)
    (heq : c'.registered = c₁.registered) : Enters r c now r' c' := by
  cases henters with
  | keeps hregistered hentries => exact .keeps (heq.trans hregistered) hentries
  | registers hfirst hregistered hunused hentries =>
    exact .registers hfirst (heq.trans hregistered) hunused hentries

theorem Deed.counted (hdeed : Deed r c now report r' c') : Deed r c now report r' c'.counted := by
  cases hdeed with
  | negotiates hstage hstage' henters =>
    exact .negotiates hstage (by simpa) (henters.of_registered_eq (by simp))
  | begins hstage hstage' hlastAck hregistered =>
    exact .begins hstage (by simpa) hlastAck (by simpa)
  | runs hstage hstage' hnow hdoes hregistered hamends =>
    exact .runs hstage (by simpa) hnow hdoes (by simpa) hamends
  | ends keep hstage' hregistered hgone hentries =>
    exact .ends keep (by simpa) (by simpa) hgone hentries

private theorem amends_note (h : Host) (outlets : List Session.Outlet) (effect : Session.Effect) :
    h.registry.Amends effect.report? ({ h with outlets }.note effect).registry := by
  cases effect with
  | progress s => exact .reports s
  | injected e =>
    refine .keeps ?_
    simp only [note]
    split <;> rfl
  | none | command | read | wrote | popped | closedQueue | shut => exact .keeps rfl

/-- The connection with this index has made a move. -/
structure Acts (h : Host) (i : Nat) (now : Instant) (report : Option Snapshot) (h' : Host)
    (c c' : Connection) : Prop where
  connection : h.connections[i]? = some c
  connections_eq : h'.connections = h.connections.set i c'
  outlet_eq : c'.outlet = c.outlet
  length_eq : h'.outlets.length = h.outlets.length
  deed : Deed h.registry c now report h'.registry c'

theorem Acts.connection' (hacts : h.Acts i now report h' c c') : h'.connections[i]? = some c' := by
  obtain ⟨hlt, -⟩ := List.getElem?_eq_some_iff.mp hacts.connection
  rw [hacts.connections_eq, List.getElem?_set_self hlt]

theorem Acts.others (hacts : h.Acts i now report h' c c') {j : Nat} (hne : j ≠ i) :
    h'.connections[j]? = h.connections[j]? := by
  rw [hacts.connections_eq, List.getElem?_set_ne hne.symm]

/-- Whoever is there after a move has made it, or was there before. -/
theorem Acts.connection_cases (hacts : h.Acts i now report h' c c') {j : Nat} {d : Connection}
    (hd : h'.connections[j]? = some d) : j = i ∧ d = c' ∨ h.connections[j]? = some d := by
  by_cases hsame : j = i
  · subst hsame
    exact .inl ⟨rfl, Option.some.inj (hd.symm.trans hacts.connection')⟩
  · exact .inr (hacts.others hsame ▸ hd)

private theorem enters_afterEffect (h : Host) (now : Instant) (hkeeps : c.Keeps) {conduct : Conduct}
    (hstage : c.stage = .negotiating conduct) (effect : Handshake.Effect) :
    Enters h.registry c now (h.afterEffect c now effect).1.registry
      (h.afterEffect c now effect).2 := by
  have hsame : Enters h.registry c now h.registry c := .keeps rfl rfl
  unfold afterEffect
  split
  · split
    · exact .keeps rfl (Registry.entries_of_reserve ‹_›)
    · exact hsame
  · split
    · rename_i hplace
      split
      · rename_i hcommit
        obtain ⟨hunused, rfl⟩ := Registry.commit?_eq_some hcommit
        -- Who holds a place has not registered anything.
        have hfirst : c.registered = none := by
          rw [Connection.Keeps, hstage] at hkeeps
          obtain ⟨holding, -, hholds⟩ := hkeeps
          cases holding with
          | nothing | session => simp [Connection.Holds, hplace] at hholds
          | place => exact hholds.2
        exact .registers hfirst rfl hunused rfl
      · exact hsame
    · exact hsame
  · exact hsame

private theorem length_outlets_abandon (h : Host) (i : Nat) (c : Connection) (why : Failure) :
    (h.abandon i c why).outlets.length = h.outlets.length := by
  obtain ⟨h₁, -, houtlets, -, heq⟩ := h.exists_abandon i c why
  rw [heq, ← houtlets]
  simp only [setConnection, closeMailbox]
  split
  · exact List.length_set
  · rfl

private theorem acts_negotiate {conduct : Conduct} (hc : h.connections[i]? = some c)
    (hstage : c.stage = .negotiating conduct) (hkeeps : c.Keeps)
    (hstep : h.negotiate i c conduct now e = some (h', e')) :
    ∃ c', h.Acts i now none h' c c' := by
  unfold negotiate at hstep
  split at hstep
  · rename_i why _
    obtain ⟨rfl, -⟩ := Prod.mk.inj (Option.some.inj hstep)
    refine ⟨_, hc, connections_abandon h i c.counted why, by simp, length_outlets_abandon .., ?_⟩
    rw [registry_abandon]
    exact .ends (fun id ↦ c.counted.registered != some id) rfl (by simp)
      (fun id hid ↦ by simp [hid]) (Registry.entries_vacated ..)
  · obtain ⟨rfl, -⟩ := Prod.mk.inj (Option.some.inj hstep)
    exact ⟨_, hc, rfl, by simp, rfl, Deed.counted (.begins hstage rfl rfl rfl)⟩
  · obtain ⟨⟨conduct', effect, e₁⟩, -, heq⟩ := Option.map_eq_some_iff.mp hstep
    have hserves := h.serves_afterEffect c now effect
    have henters := h.enters_afterEffect now hkeeps hstage effect
    simp only at heq
    generalize h.afterEffect c now effect = after at heq hserves henters
    obtain ⟨h₁, c₁⟩ := after
    obtain ⟨rfl, -⟩ := Prod.mk.inj heq
    refine ⟨_, hc, by rw [setConnection, hserves.connections_eq], by simpa using hserves.outlet_eq,
      congrArg _ hserves.outlets_eq, Deed.counted (.negotiates hstage rfl ?_)⟩
    exact henters.of_registered_eq rfl

theorem report?_of_running {w : Worker} (hc : h.connections[i]? = some c)
    (hstage : c.stage = .running w) : h.report? (.move i now e) =
      (h.outletOf c w.session).bind fun out ↦
        (w.move now h.inject out e).bind fun moved ↦ moved.2.1.report? := by
  simp only [report?, hc, hstage, Option.bind_eq_bind, Option.bind_some]

private theorem move_eq_none {w : Worker} {ending : Ending} (h : w.result? = some ending)
    (now : Instant) (inject : Injector) (out : Session.Outlet) (e : Endpoint) :
    w.move now inject out e = none := by
  unfold Worker.result? at h
  split at h
  · rename_i hphase
    simp only [Worker.move, Worker.step, hphase, Option.map_none]
  · nomatch h

private theorem acts_run {w : Worker} (hc : h.connections[i]? = some c)
    (hstage : c.stage = .running w) (hkeeps : c.Keeps) (hstep : h.run i c w now e = some (h', e')) :
    ∃ c', h.Acts i now (h.report? (.move i now e)) h' c c' := by
  rw [report?_of_running hc hstage]
  unfold run at hstep
  split at hstep
  · rename_i ending hresult
    have hreport : ((h.outletOf c w.session).bind fun out ↦
        (w.move now h.inject out e).bind fun moved ↦ moved.2.1.report?) = none := by
      simp [move_eq_none hresult]
    obtain ⟨rfl, -⟩ := Prod.mk.inj (Option.some.inj hstep)
    rw [hreport]
    refine ⟨_, hc, by rw [retire, setConnection, connections_removeSession], by simp,
      congrArg _ (outlets_removeSession ..), Deed.counted ?_⟩
    rw [Connection.Keeps, hstage] at hkeeps
    refine .ends (· != w.session) rfl (by simp) (fun id hid ↦ ?_)
      (entries_removeSession ..)
    simp [Option.some.inj (hid.symm.trans hkeeps.2)]
  split at hstep
  · cases hstep
  · rename_i out hreach
    obtain ⟨⟨w', effect, out', e₁⟩, hmove, heq⟩ := Option.map_eq_some_iff.mp hstep
    obtain ⟨rfl, -⟩ := Prod.mk.inj heq
    rw [hreach, Option.bind_some, hmove, Option.bind_some]
    obtain ⟨⟨w₁, effect₁⟩, hw, heq⟩ := Option.map_eq_some_iff.mp hmove
    obtain ⟨rfl, rfl, -⟩ : w₁ = w' ∧ effect₁ = effect ∧ _ := by simpa using heq
    refine ⟨_, hc, by rw [setConnection, connections_note], by simp, ?_, Deed.counted ?_⟩
    · simp [setConnection, setOutlet]
    · exact .runs hstage rfl rfl (Worker.does_step hw) rfl (amends_note ..)

/-- **A move is a deed** of the connection that makes it. -/
theorem acts_of_step (hkeeps : ∀ c ∈ h.connections, c.Keeps)
    (hstep : h.step i now e = some (h', e')) :
    ∃ c c', h.Acts i now (h.report? (.move i now e)) h' c c' := by
  unfold step at hstep
  split at hstep
  · nomatch hstep
  rename_i c hc
  split at hstep
  · rename_i conduct hstage
    have hreport : h.report? (.move i now e) = none := by
      simp only [report?, hc, hstage, Option.bind_eq_bind, Option.bind_some]
    rw [hreport]
    exact ⟨c, acts_negotiate hc hstage (hkeeps c (List.mem_of_getElem? hc)) hstep⟩
  · exact ⟨c, acts_run hc ‹_› (hkeeps c (List.mem_of_getElem? hc)) hstep⟩
  · nomatch hstep

theorem report?_of_step_eq_none (hstep : h.step i now e = none) :
    h.report? (.move i now e) = none := by
  cases hc : h.connections[i]? with
  | none => simp [report?, hc]
  | some c =>
    cases hstage : c.stage with
    | negotiating conduct | ended result => simp [report?, hc, hstage]
    | running w =>
      simp only [step, hc, hstage, run] at hstep
      rw [report?_of_running hc hstage]
      split at hstep
      · nomatch hstep
      split at hstep
      · rename_i hreach
        rw [hreach, Option.bind_none]
      · rename_i out hreach
        rw [Option.map_eq_none_iff] at hstep
        rw [hreach, Option.bind_some, hstep, Option.bind_none]

end Host

end Server

end DeskLink
