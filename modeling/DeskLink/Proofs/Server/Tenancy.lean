import DeskLink.Proofs.Server.Tally

/-!
# Every connection gives back what it took

A move of a connection is one of the trades that keep the tally of the registry and its tenants. So
a connection that is over has left nothing behind, however it came to its end, and when all are over
the registry is as empty as it was at first.

A challenge is only sent when a place is held, and what is held is given back only at the end. So
the connections that have been challenged and are not over have a place or a session each, and there
are no more of them than the registry has room for.
-/

namespace DeskLink.Server

open Handshake (Conduct Holding)
open Session (Worker)

/-! ## A move -/

namespace Host

variable {h h' : Host} {i : Nat} {c : Connection} {now : Instant} {e e' : Endpoint}

@[simp] theorem registry_removeSession (h : Host) (id : SessionId) :
    (h.removeSession id).registry = (h.registry.remove id).2 := by
  unfold removeSession
  split <;> simp_all [report]

@[simp] theorem registry_closeMailbox (h : Host) (key : Nat) :
    (h.closeMailbox key).registry = h.registry := by
  unfold closeMailbox
  split <;> rfl

theorem registry_abandon (h : Host) (i : Nat) (c : Connection) (why : Failure) :
    (h.abandon i c why).registry = h.registry.vacated c.registered c.reserved := by
  simp only [abandon, setConnection, registry_closeMailbox, Registry.vacated]
  cases c.registered <;> cases c.reserved <;> simp

private theorem connections_closeMailbox (h : Host) (key : Nat) :
    (h.closeMailbox key).connections = h.connections := by
  unfold closeMailbox
  split <;> rfl

theorem connections_abandon (h : Host) (i : Nat) (c : Connection) (why : Failure) :
    (h.abandon i c why).connections = h.connections.set i
      { c with stage := .ended (.error why), reserved := false } := by
  obtain ⟨h₁, hconnections, -, -, heq⟩ := h.exists_abandon i c why
  rw [heq, setConnection, connections_closeMailbox, hconnections]
  rfl

/-- What the dealings of a handshake with the registry come to. -/
theorem exists_trade {holding holding' : Holding} {effect : Handshake.Effect} {conduct : Conduct}
    (hown : c.outlet = i) (hstage : c.stage = .negotiating conduct) (hholds : c.Holds holding)
    (hdeals : Conduct.Deals (Handshake.offer now (h.registrar c now) e) holding effect holding')
    (conduct' : Conduct) :
    ∃ h₁ c₁, h.afterEffect c now effect = (h₁, c₁) ∧ h₁.connections = h.connections ∧
      c₁.Holds holding' ∧
      Trades i h.registry c h₁.registry { c₁ with stage := .negotiating conduct' } := by
  have htenant : c.tenant? = c.registered := by rw [Connection.tenant?, hstage]
  have hsame : Trades i h.registry c h.registry { c with stage := .negotiating conduct' } :=
    .keeps rfl rfl rfl rfl htenant.symm
  cases hdeals with
  | idles hasks =>
    cases effect with
    | reserved | registered => cases hasks
    | _ => exact ⟨h, c, rfl, rfl, hholds, hsame⟩
  | refused hreserve =>
    cases hanswer : h.registry.reserve with
    | ok registry => simp [Handshake.offer, registrar, hanswer, Except.map] at hreserve
    | error why => exact ⟨h, c, by simp only [afterEffect, hanswer], rfl, hholds, hsame⟩
  | rejected hregister =>
    -- Without a place the registry is not even asked; with one, it has no name left to give.
    refine ⟨h, c, ?_, rfl, hholds, hsame⟩
    simp only [Handshake.offer, registrar] at hregister
    simp only [afterEffect]
    split
    · rename_i hplace
      rw [if_pos hplace] at hregister
      split at hregister
      · cases hregister
      · rfl
    · rfl
  | placed hreserve =>
    obtain ⟨hplace, hnone⟩ := hholds
    obtain ⟨registry, hanswer, -⟩ := map_eq_ok.mp hreserve
    obtain ⟨hroom, rfl⟩ := Registry.reserve_eq_ok hanswer
    have heffect : h.afterEffect c now .reserved =
        ({ h with
            registry := { h.registry with reserved := h.registry.reserved + 1 }
            drawn := h.drawn + 1 },
          { c with reserved := true }) := by
      simp only [afterEffect, hanswer]
    exact ⟨_, _, heffect, rfl, ⟨rfl, hnone⟩, .reserves hroom hplace rfl htenant.symm⟩
  | @registered peer version id hregister =>
    obtain ⟨hplace, hnone⟩ := hholds
    simp only [Handshake.offer, registrar, if_pos hplace] at hregister
    split at hregister
    · rename_i id' registry hanswer
      obtain rfl : id' = id := Except.ok.inj hregister
      obtain ⟨hunused, rfl⟩ := Registry.commit?_eq_some hanswer
      have heffect : h.afterEffect c now (.registered peer version) = (report { h with
          registry := h.registry.release.added id' ⟨peer, version, some c.outlet⟩ now
          named := h.named + 1 }, { c with reserved := false, registered := some id' }) := by
        simp only [afterEffect, if_pos hplace, hanswer]
      exact ⟨_, _, heffect, rfl, ⟨rfl, rfl⟩,
        .registers hunused (congrArg some hown) hplace rfl (htenant.trans hnone) rfl⟩
    · cases hregister

/-- The connection with this index has made a move, and keeps to what it holds. -/
structure Deals (h : Host) (i : Nat) (h' : Host) (c c' : Connection) : Prop where
  connection : h.connections[i]? = some c
  underWay : c.result? = none
  connections_eq : h'.connections = h.connections.set i c'
  keeps : c'.Keeps
  trades : Trades i h.registry c h'.registry c'

private theorem deals_negotiate {conduct : Conduct} (hc : h.connections[i]? = some c)
    (hown : c.outlet = i) (hstage : c.stage = .negotiating conduct) (hkeeps : c.Keeps)
    (hstep : h.negotiate i c conduct now e = some (h', e')) : ∃ c', h.Deals i h' c c' := by
  have htenant : c.tenant? = c.registered := by rw [Connection.tenant?, hstage]
  have hopen : c.result? = none := by rw [Connection.result?, hstage]
  obtain ⟨holding, hstands, hholds⟩ : ∃ holding, conduct.Stands holding ∧ c.Holds holding := by
    rwa [Connection.Keeps, hstage] at hkeeps
  unfold negotiate at hstep
  split at hstep
  · rename_i why _
    obtain ⟨rfl, -⟩ := Prod.mk.inj (Option.some.inj hstep)
    refine ⟨_, hc, hopen, connections_abandon h i c.counted why, rfl, ?_⟩
    rw [registry_abandon, Connection.registered_counted, Connection.reserved_counted, ← htenant]
    exact .leaves rfl rfl rfl
  · rename_i outcome hresult
    obtain ⟨rfl, -⟩ := Prod.mk.inj (Option.some.inj hstep)
    obtain rfl := hstands.of_result? hresult
    refine ⟨_, hc, hopen, rfl, Connection.Keeps.counted ?_, Trades.counted ?_⟩
    · exact hholds
    · exact .keeps rfl rfl rfl rfl htenant.symm
  · -- The registry has carried out what the handshake was told it would answer.
    obtain ⟨⟨conduct', effect, e₁⟩, hmove, heq⟩ := Option.map_eq_some_iff.mp hstep
    obtain ⟨⟨conduct₁, effect₁⟩, hmoved, hresult⟩ := Option.map_eq_some_iff.mp hmove
    obtain ⟨rfl, rfl, -⟩ : conduct₁ = conduct' ∧ effect₁ = effect ∧ _ = e₁ := by simpa using hresult
    obtain ⟨holding', hstands', hdeals⟩ := hstands.deals (Conduct.does_step hmoved)
    obtain ⟨h₁, c₁, heffect, hconnections, hholds', htrades⟩ :=
      exists_trade hown hstage hholds hdeals conduct₁
    simp only [heffect] at heq
    obtain ⟨rfl, -⟩ := Prod.mk.inj heq
    refine ⟨_, hc, hopen, by rw [setConnection, hconnections], Connection.Keeps.counted ?_,
      htrades.counted⟩
    exact ⟨holding', hstands', hholds'.of_eq rfl rfl⟩

/-- What a session tells about itself changes its record and nothing else in the registry. -/
theorem tags_note (h : Host) (effect : Session.Effect) :
    (h.note effect).registry.tags = h.registry.tags ∧
      (h.note effect).registry.reserved = h.registry.reserved ∧
      (h.note effect).registry.maxClients = h.registry.maxClients := by
  unfold note
  split
  · split <;> exact ⟨rfl, rfl, rfl⟩
  · exact ⟨Registry.tags_update .., rfl, rfl⟩
  · exact ⟨rfl, rfl, rfl⟩

private theorem deals_run {w : Worker} (hc : h.connections[i]? = some c)
    (hstage : c.stage = .running w) (hkeeps : c.Keeps)
    (hstep : h.run i c w now e = some (h', e')) : ∃ c', h.Deals i h' c c' := by
  obtain ⟨hplace, hregistered⟩ : c.Holds (.session w.session) := by
    rwa [Connection.Keeps, hstage] at hkeeps
  have htenant : c.tenant? = some w.session := by rw [Connection.tenant?, hstage, hregistered]
  have hopen : c.result? = none := by rw [Connection.result?, hstage]
  unfold run at hstep
  split at hstep
  · rename_i ending _
    obtain ⟨rfl, -⟩ := Prod.mk.inj (Option.some.inj hstep)
    refine ⟨({ c.counted with stage := .ended ending } : Connection).counted, hc, hopen, ?_,
      Connection.Keeps.counted ?_, Trades.counted ?_⟩
    · rw [retire, setConnection, connections_removeSession]
    · exact (Connection.reserved_counted c).trans hplace
    · have hregistry : (h.retire i c.counted w.session ending).registry =
          h.registry.vacated c.tenant? c.reserved := by
        rw [htenant, hplace]
        exact registry_removeSession ..
      rw [hregistry]
      exact .leaves ((Connection.reserved_counted c).trans hplace) rfl rfl
  split at hstep
  · cases hstep
  · obtain ⟨⟨w', effect, out', e₁⟩, hmove, heq⟩ := Option.map_eq_some_iff.mp hstep
    obtain ⟨rfl, -⟩ := Prod.mk.inj heq
    obtain ⟨⟨w₁, effect₁⟩, hmoved, hresult⟩ := Option.map_eq_some_iff.mp hmove
    obtain ⟨rfl, rfl, -⟩ : w₁ = w' ∧ effect₁ = effect ∧ _ := by simpa using hresult
    have hsession := Worker.session_of_does (Worker.does_step hmoved)
    have hregistered' := hregistered.trans (congrArg some hsession.symm)
    obtain ⟨htags, hreserved, hmax⟩ := tags_note { h with outlets := _ } effect₁
    refine ⟨({ c with stage := .running w₁ } : Connection).counted, hc, hopen, ?_,
      Connection.Keeps.counted ⟨hplace, hregistered'⟩, Trades.counted ?_⟩
    · rw [setConnection, connections_note]
    · exact .keeps htags hreserved hmax rfl (hregistered.trans htenant.symm)

theorem deals_of_own
    (hown : ∀ (i : Nat) (c : Connection), h.connections[i]? = some c → c.outlet = i)
    (hkeeps : ∀ c ∈ h.connections, c.Keeps) (hstep : h.step i now e = some (h', e')) :
    ∃ c c', h.Deals i h' c c' := by
  unfold step at hstep
  split at hstep
  · cases hstep
  rename_i c hc
  have hkeep := hkeeps c (List.mem_of_getElem? hc)
  split at hstep
  · exact ⟨c, deals_negotiate hc (hown i c hc) ‹_› hkeep hstep⟩
  · exact ⟨c, deals_run hc ‹_› hkeep hstep⟩
  · cases hstep

private theorem deals_of_step (hsound : h.Sound) (hkeeps : ∀ c ∈ h.connections, c.Keeps)
    (hstep : h.step i now e = some (h', e')) : ∃ c c', h.Deals i h' c c' :=
  deals_of_own hsound.own hkeeps hstep

/-- Whoever moves keeps to what he holds, and nobody else is concerned. -/
theorem Deals.keeps_all (hdeals : h.Deals i h' c c') (hkeeps : ∀ c ∈ h.connections, c.Keeps) :
    ∀ c ∈ h'.connections, c.Keeps := by
  intro d hd
  rcases List.mem_or_eq_of_mem_set (hdeals.connections_eq ▸ hd) with hd | rfl
  · exact hkeeps d hd
  · exact hdeals.keeps

/-! ## Whatever happens -/

/-- The registry and the connections agree, and each connection keeps to what it holds. -/
structure Tallied (h : Host) (maxClients : Nat) : Prop where
  sound : h.Sound
  keeps : ∀ c ∈ h.connections, c.Keeps
  tally : Tally h.registry h.connections
  maxClients_eq : h.registry.maxClients = maxClients

variable {maxClients : Nat}

private theorem tallied_new (own : Hello) (checker : Checker) (inject : Injector) (tuning : Tuning)
    (entropy : Entropy) (maxClients : Nat) :
    (new own checker inject tuning entropy maxClients).Tallied maxClients where
  sound := sound_new ..
  keeps _ hc := by simp [new] at hc
  tally := ⟨Nat.zero_le _, List.nodup_nil, rfl, by simp [new, Registry.tags, Registry.new]⟩
  maxClients_eq := rfl

theorem Reaches.same (h₁ : h.Reaches h') :
    h'.connections = h.connections ∧ h'.registry = h.registry :=
  ⟨h₁.connections_eq, h₁.registry_eq⟩

/-- Whatever happens at a server, it accepts a connection, one of them deals with the registry, or
neither the registry nor the connections are concerned. -/
theorem act_deals (hsound : h.Sound) (hkeeps : ∀ c ∈ h.connections, c.Keeps) (a : Act) :
    (∃ now, h.act a = h.accept now) ∨ (∃ i c c', h.Deals i (h.act a) c c') ∨
      (h.act a).connections = h.connections ∧ (h.act a).registry = h.registry := by
  cases a with
  | accept now => exact .inl ⟨now, rfl⟩
  | move i now e =>
    cases hstep : h.step i now e with
    | none => exact .inr (.inr (by simp [act, hstep]))
    | some moved =>
      simp only [act, hstep]
      exact .inr (.inl ⟨i, deals_of_step hsound hkeeps hstep⟩)
  | close id reason => exact .inr (.inr (reaches_act_close id reason).same)
  | shutdown => exact .inr (.inr (reaches_shutdown h).same)
  | focus id => exact .inr (.inr (reaches_focus id).same)
  | hand key id e => exact .inr (.inr (reaches_hand key id e).same)

theorem Tallied.accept (hs : h.Tallied maxClients) (now : Instant) :
    (h.accept now).Tallied maxClients where
  sound := hs.sound.accept now
  keeps d hd := by
    rcases List.mem_append.mp hd with hd | hd
    · exact hs.keeps d hd
    · obtain rfl := List.mem_singleton.mp hd
      exact ⟨.nothing, Conduct.stands_start .., rfl, rfl⟩
  tally := hs.tally.arrives rfl rfl
  maxClients_eq := hs.maxClients_eq

theorem Tallied.act (hs : h.Tallied maxClients) (a : Act) : (h.act a).Tallied maxClients := by
  have hsound := hs.sound.act a
  rcases act_deals hs.sound hs.keeps a with
    ⟨now, heq⟩ | ⟨i, c, c', hdeals⟩ | ⟨hconnections, hregistry⟩
  · exact heq ▸ hs.accept now
  · refine ⟨hsound, hdeals.keeps_all hs.keeps, ?_,
      hdeals.trades.maxClients_eq.trans hs.maxClients_eq⟩
    rw [hdeals.connections_eq]
    exact hs.tally.trades hdeals.connection hdeals.trades
  · refine ⟨hsound, ?_, ?_, ?_⟩
    · exact hconnections.symm ▸ hs.keeps
    · rw [hconnections, hregistry]
      exact hs.tally
    · rw [hregistry]
      exact hs.maxClients_eq

theorem Tallied.perform (hs : h.Tallied maxClients) (acts : List Act) :
    (h.perform acts).Tallied maxClients := by
  induction acts generalizing h with
  | nil => exact hs
  | cons a acts ih => exact ih (hs.act a)

/-! ## From the challenge to the end -/

end Host

namespace Connection

/-- The challenge that is sent next. -/
def challenge? (c : Connection) : Option Nonce :=
  match c.stage with
  | .negotiating conduct => conduct.challenge?
  | _ => none

/-- The connection holds a place or a session, or it is over. -/
def Held (c : Connection) : Prop :=
  c.result?.isSome ∨ c.reserved = true ∨ c.tenant?.isSome

variable {c c' : Connection}

theorem Keeps.reserved_of_over (h : c.Keeps) (hover : c.result?.isSome) : c.reserved = false := by
  unfold Keeps at h
  unfold result? at hover
  split at hover
  · rename_i hstage
    rwa [hstage] at h
  · cases hover

theorem Keeps.held (h : c.Keeps) {nonce : Nonce} (hchallenge : c.challenge? = some nonce) :
    c.Held := by
  unfold challenge? at hchallenge
  split at hchallenge
  · rename_i conduct hstage
    rw [Keeps, hstage] at h
    obtain ⟨holding, hstands, hholds⟩ := h
    obtain rfl := hstands.of_challenge? hchallenge
    exact .inr (.inl hholds.1)
  · cases hchallenge

/-- What is held is given back at the end, and not before. -/
theorem Held.trades {i : Nat} {r r' : Registry} (h : c.Held) (hopen : c.result? = none)
    (htrades : Trades i r c r' c') : c'.Held := by
  cases htrades with
  | keeps _ _ _ hplace htenant =>
    refine .inr ?_
    rw [hplace, htenant]
    exact h.resolve_left (by simp [hopen])
  | reserves _ _ hplace' _ => exact .inr (.inl hplace')
  | registers _ _ _ _ _ htenant' => exact .inr (.inr (by simp [htenant']))
  | leaves _ _ hover => exact .inl hover

end Connection

namespace Host

variable {h : Host} {i : Nat} {maxClients : Nat}

/-- At some moment during these acts, a challenge is about to be sent on the connection with this
index; no byte of it has been written yet. -/
def ChallengedDuring (h : Host) (acts : List Act) (i : Nat) : Prop :=
  ∃ before after, acts = before ++ after ∧
    ((h.perform before).connections[i]?.bind Connection.challenge?).isSome

/-- The connection with this index holds a place or a session, or it is over. -/
def Held (h : Host) (i : Nat) : Prop := ∃ c, h.connections[i]? = some c ∧ c.Held

theorem Held.act (hheld : h.Held i) (hs : h.Tallied maxClients) (a : Act) : (h.act a).Held i := by
  obtain ⟨c, hc, hheld⟩ := hheld
  rcases act_deals hs.sound hs.keeps a with ⟨now, heq⟩ | ⟨j, d, d', hdeals⟩ | ⟨hconnections, -⟩
  · obtain ⟨hlt, -⟩ := List.getElem?_eq_some_iff.mp hc
    refine ⟨c, ?_, hheld⟩
    rw [heq, accept, List.getElem?_append_left hlt, hc]
  · rcases Decidable.em (j = i) with rfl | hne
    · obtain rfl := Option.some.inj (hc.symm.trans hdeals.connection)
      obtain ⟨hlt, -⟩ := List.getElem?_eq_some_iff.mp hc
      refine ⟨d', ?_, hheld.trades hdeals.underWay hdeals.trades⟩
      rw [hdeals.connections_eq, List.getElem?_set_self hlt]
    · refine ⟨c, ?_, hheld⟩
      rw [hdeals.connections_eq, List.getElem?_set_ne hne, hc]
  · exact ⟨c, hconnections ▸ hc, hheld⟩

theorem Held.perform (hheld : h.Held i) (hs : h.Tallied maxClients) (acts : List Act) :
    (h.perform acts).Held i := by
  induction acts generalizing h with
  | nil => exact hheld
  | cons a acts ih => exact ih (hheld.act hs a) (hs.act a)

private theorem held_of_challengedDuring (hs : h.Tallied maxClients) {acts : List Act}
    (hchallenged : h.ChallengedDuring acts i) : (h.perform acts).Held i := by
  obtain ⟨before, after, rfl, hsome⟩ := hchallenged
  obtain ⟨nonce, hnonce⟩ := Option.isSome_iff_exists.mp hsome
  obtain ⟨c, hc, hchallenge⟩ := Option.bind_eq_some_iff.mp hnonce
  have hkeeps := (hs.perform before).keeps c (List.mem_of_getElem? hc)
  rw [perform_append]
  exact Held.perform ⟨c, hc, hkeeps.held hchallenge⟩ (hs.perform before) after

/-- Every session in the registry is that of a connection that is not over. -/
theorem Tallied.tenant_of_mem (hs : h.Tallied maxClients) {e : Entry}
    (he : e ∈ h.registry.entries) :
    ∃ i c, e.control = some i ∧ h.connections[i]? = some c ∧ c.result? = none ∧
      c.registered = some e.record.session := by
  have htag : (e.record.session, e.control) ∈ h.registry.tags := List.mem_map.mpr ⟨e, he, rfl⟩
  obtain ⟨i, hcontrol, htenant⟩ := (hs.tally.tenants ..).mp htag
  obtain ⟨c, hc, htenant⟩ := Option.bind_eq_some_iff.mp htenant
  exact ⟨i, c, hcontrol, hc, Connection.of_tenant? htenant⟩

/-- When every connection is over, the registry is as at first. -/
theorem Tallied.empty (hs : h.Tallied maxClients) (hover : ∀ c ∈ h.connections, c.result?.isSome) :
    h.registry.entries = [] ∧ h.registry.reserved = 0 := by
  constructor
  · refine List.eq_nil_iff_forall_not_mem.mpr fun e he ↦ ?_
    obtain ⟨i, c, -, hc, hopen, -⟩ := hs.tenant_of_mem he
    have hended := hover c (List.mem_of_getElem? hc)
    simp [hopen] at hended
  · rw [hs.tally.reserved_eq, List.countP_eq_zero]
    intro c hc
    simp [(hs.keeps c hc).reserved_of_over (hover c hc)]

/-- **A connection gives back what it took, and nothing else.** Whatever happens at a server, in
whatever order: the connections that have been challenged and are not over are never more than the
capacity. The places that are reserved are those that connections hold, and every session is that of
a connection that is not over, so that a connection that is over has left neither. When all are
over, the registry is empty, and as many places are given as its capacity. -/
theorem gives_back (own : Hello) (checker : Checker) (inject : Injector) (tuning : Tuning)
    (entropy : Entropy) (maxClients : Nat) (acts : List Act) :
    let start := new own checker inject tuning entropy maxClients
    let h := start.perform acts
    (∀ challenged : List Nat, challenged.Nodup →
      (∀ i ∈ challenged, start.ChallengedDuring acts i ∧
        ∃ c, h.connections[i]? = some c ∧ c.result? = none) →
      challenged.length ≤ maxClients) ∧
    h.registry.reserved = h.connections.countP (·.reserved) ∧
    (∀ e ∈ h.registry.entries, ∃ i c, e.control = some i ∧ h.connections[i]? = some c ∧
      c.result? = none ∧ c.registered = some e.record.session) ∧
    (∀ (i : Nat) (c : Connection), h.connections[i]? = some c → c.result?.isSome →
      c.reserved = false ∧ ∀ e ∈ h.registry.entries, e.control ≠ some i) ∧
    ((∀ c ∈ h.connections, c.result?.isSome) →
      h.registry.entries = [] ∧ h.registry.reserved = 0 ∧
      (List.replicate maxClients ()).foldlM (fun r _ ↦ r.reserve) h.registry =
        .ok { h.registry with reserved := maxClients }) := by
  intro start h
  have hstart : start.Tallied maxClients := tallied_new ..
  have hs : h.Tallied maxClients := hstart.perform acts
  refine ⟨fun challenged hnodup hchallenged ↦ ?_, hs.tally.reserved_eq,
    fun e he ↦ hs.tenant_of_mem he, fun i c hc hover ↦ ⟨?_, fun e he hcontrol ↦ ?_⟩,
    fun hover ↦ ?_⟩
  · -- Whoever was challenged held a place then, and holds it or a session until it is over.
    rw [← hs.maxClients_eq]
    refine hs.tally.length_holders hnodup fun i hi ↦ ?_
    obtain ⟨hduring, c, hc, hopen⟩ := hchallenged i hi
    obtain ⟨d, hd, hheld⟩ := held_of_challengedDuring hstart hduring
    obtain rfl := Option.some.inj (hc.symm.trans hd)
    exact ⟨c, hc, hheld.resolve_left (by simp [hopen])⟩
  · exact (hs.keeps c (List.mem_of_getElem? hc)).reserved_of_over hover
  · obtain ⟨j, d, hcontrol', hd, hopen, -⟩ := hs.tenant_of_mem he
    obtain rfl := Option.some.inj (hcontrol.symm.trans hcontrol')
    obtain rfl := Option.some.inj (hc.symm.trans hd)
    simp [hopen] at hover
  · obtain ⟨hentries, hreserved⟩ := hs.empty hover
    have hroom : h.registry.occupied + maxClients ≤ h.registry.maxClients := by
      simp [Registry.occupied, hentries, hreserved, hs.maxClients_eq]
    refine ⟨hentries, hreserved, ?_⟩
    rw [Registry.reserve_times hroom, hreserved, Nat.zero_add]

/-- The only place is kept for a peer that has been challenged, and is free again when the peer has
hung up. -/
theorem gives_back_after_hangup :
    let hangup : Act := .move 0 0 ⟨⟨1024, [], true⟩, .new 1024⟩
    let acts := Act.greeting ++ List.replicate 4 hangup
    let registry := ((lenient 8).perform acts).registry
    (lenient 8).ChallengedDuring acts 0 ∧
      ((lenient 8).perform Act.greeting).registry.occupied = 1 ∧ registry.entries = [] ∧
      (List.replicate 1 ()).foldlM (fun r _ ↦ r.reserve) registry =
        .ok { registry with reserved := 1 } := by
  intro hangup acts registry
  have hback : (∀ c ∈ ((lenient 8).perform acts).connections, c.result?.isSome) →
      registry.entries = [] ∧ registry.reserved = 0 ∧
        (List.replicate 1 ()).foldlM (fun r _ ↦ r.reserve) registry =
          .ok { registry with reserved := 1 } := (gives_back _ _ _ _ _ 1 acts).2.2.2.2
  have hover : ∀ c ∈ ((lenient 8).perform acts).connections, c.result?.isSome := by
    decide +kernel
  obtain ⟨hentries, -, hroom⟩ := hback hover
  have hchallenged : (lenient 8).ChallengedDuring acts 0 :=
    ⟨Act.greeting.take 7, acts.drop 7, rfl, by decide +kernel⟩
  exact ⟨hchallenged, by decide +kernel, hentries, hroom⟩

end Host

end DeskLink.Server
