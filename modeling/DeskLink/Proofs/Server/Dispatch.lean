import DeskLink.Proofs.Server.Chronicle
import DeskLink.Proofs.Server.Pumping

/-!
# Where events are forwarded to

A `Dispatch` is all that forwarding depends on: the registry, the session that is pinned, the queues
and the pumps that carry events to them. Sessions are registered and removed, a session is pinned,
events are captured and forwarded, and the sessions do with their queues what they like, in any
order.

An event has one target, which is settled when the event is taken, before it is handed to a queue.
The target is the pinned session while that one is registered, and the newest session otherwise.
From then on the event can only reach the queue of that session, whoever is registered or pinned
when there is room for it at last.
-/

namespace DeskLink.Server

open Session (Outlet Handed)

/-! ## Who is registered, and since when -/

namespace Ledger

variable {maxClients : Nat} {acts : List Act} {id : SessionId} {n : Newcomer} {now : Instant}
  {since : List Act} {e : Entry} {key : Nat}

/-- This session is registered, since this instant. -/
def Live (l : Ledger) (acts : List Act) (id : SessionId) (now : Instant) : Prop :=
  ∃ n since, l.Stays acts id n now since

theorem find?_eq_some_iff : ((new maxClients).perform acts).registry.find? id = some e ↔
    ∃ n now since, (new maxClients).Stays acts id n now since ∧ e = entryOf id n now since := by
  have hfound (e : Entry) (he : ((new maxClients).perform acts).registry.find? id = some e) :
      ∃ n now since, (new maxClients).Stays acts id n now since ∧ e = entryOf id n now since := by
    obtain ⟨id', n, now, since, hstays, rfl⟩ :=
      (mem_entries_iff maxClients acts e).mp (List.mem_of_find?_eq_some he)
    have hsame : id' = id := by simpa [session_entryOf] using List.find?_some he
    exact ⟨n, now, since, hsame ▸ hstays, hsame ▸ rfl⟩
  constructor
  · exact hfound e
  · rintro ⟨n, now, since, hstays, rfl⟩
    obtain ⟨e, he⟩ := Option.ne_none_iff_exists'.mp hstays.find?_ne_none
    obtain ⟨n', now', since', hstays', rfl⟩ := hfound e he
    obtain ⟨rfl, rfl, rfl⟩ := hstays.unique hstays'
    exact he

theorem isSome_find?_iff : (((new maxClients).perform acts).registry.find? id).isSome = true ↔
    ∃ now, (new maxClients).Live acts id now := by
  rw [Option.isSome_iff_exists]
  constructor
  · rintro ⟨e, he⟩
    obtain ⟨n, now, since, hstays, -⟩ := find?_eq_some_iff.mp he
    exact ⟨now, n, since, hstays⟩
  · rintro ⟨now, n, since, hstays⟩
    exact ⟨_, find?_eq_some_iff.mpr ⟨n, now, since, hstays, rfl⟩⟩

/-- The newest session is registered, and none has been registered later. -/
theorem live_of_newest (h : ((new maxClients).perform acts).registry.newest = some id) :
    ∃ now, (new maxClients).Live acts id now ∧
      ∀ other now', (new maxClients).Live acts other now' → now' ≤ now := by
  obtain ⟨r, hr, rfl⟩ := Option.map_eq_some_iff.mp h
  obtain ⟨hmem, hgreatest⟩ := Registry.of_latestBy hr
  obtain ⟨e, he, rfl⟩ := List.mem_map.mp hmem
  obtain ⟨id, n, now, since, hstays, rfl⟩ := (mem_entries_iff maxClients acts e).mp he
  rw [session_entryOf]
  refine ⟨now, ⟨n, since, hstays⟩, ?_⟩
  rintro other now' ⟨n', since', hstays'⟩
  have hle := hgreatest _ (List.mem_map_of_mem hstays'.mem_entries)
  rwa [establishedAt_entryOf, establishedAt_entryOf] at hle

private theorem newest_eq_none_iff : ((new maxClients).perform acts).registry.newest = none ↔
    ∀ id now, ¬ (new maxClients).Live acts id now := by
  rw [Registry.newest, Option.map_eq_none_iff, Registry.latestBy_eq_none_iff, List.map_eq_nil_iff]
  constructor
  · rintro hnil id now ⟨n, since, hstays⟩
    have hmem := hstays.mem_entries
    rw [hnil] at hmem
    nomatch hmem
  · intro hnobody
    refine List.eq_nil_iff_forall_not_mem.mpr fun e he ↦ ?_
    obtain ⟨id, n, now, since, hstays, -⟩ := (mem_entries_iff maxClients acts e).mp he
    exact hnobody id now ⟨n, since, hstays⟩

end Ledger

/-! ## Dispatching -/

/-- What forwarding depends on. -/
structure Dispatch where
  ledger : Ledger
  pin : Option SessionId
  outlets : List Outlet
  pumps : List Pump

namespace Dispatch

/-- What can happen. -/
inductive Act where
  /-- The registry is asked for something. -/
  | ask (a : Ledger.Act)
  /-- Somebody pins a session, or none. -/
  | focus (id : Option SessionId)
  /-- Events are captured, which a new pump will forward. -/
  | forward (events : List Event)
  /-- It is this pump's turn. -/
  | pump (i : Nat)
  /-- The sessions use their queues. -/
  | attend (outlets : List Outlet)

/-- Nobody is registered or pinned, and nothing is forwarded. -/
def new (maxClients : Nat) : Dispatch := ⟨.new maxClients, none, [], []⟩

def act (d : Dispatch) : Act → Dispatch
  | .ask a => { d with ledger := (d.ledger.act a).2 }
  | .focus id =>
    match setFocus d.ledger.registry id with
    | .ok pin => { d with pin }
    | .error _ => d
  | .forward events => { d with pumps := d.pumps ++ [.start events] }
  | .pump i =>
    match d.pumps[i]? with
    | none => d
    | some p =>
      match p.step d.ledger.registry d.pin d.outlets with
      | none => d
      | some (p, outlets) => { d with pumps := d.pumps.set i p, outlets }
  | .attend outlets => { d with outlets }

def perform (d : Dispatch) (acts : List Act) : Dispatch := acts.foldl act d

/-- The session that an event goes to that is taken now. -/
def aim (d : Dispatch) : Option SessionId := target d.ledger.registry d.pin

/-- What the registry has been asked for. -/
def asked (acts : List Act) : List Ledger.Act :=
  acts.filterMap fun a ↦ match a with
    | .ask a => some a
    | _ => none

/-- After these acts, this session is registered, since this instant. -/
def Live (maxClients : Nat) (acts : List Act) (id : SessionId) (now : Instant) : Prop :=
  (Ledger.new maxClients).Live (asked acts) id now

/-- This session was pinned while it was registered. Whoever has asked for something else since has
asked for a session that was not. -/
def Pinned (maxClients : Nat) (acts : List Act) (id : SessionId) : Prop :=
  ∃ before after, acts = before ++ .focus (some id) :: after ∧
    (∃ now, Live maxClients before id now) ∧
    ∀ between x rest, after = between ++ .focus x :: rest →
      ∃ other, x = some other ∧
        ∀ now, ¬ Live maxClients (before ++ .focus (some id) :: between) other now

/-- If it is this pump's turn after these acts, it takes this event along for this session, to be
handed to the queue with this key. -/
structure Takes (maxClients : Nat) (acts : List Act) (i : Nat) (e : Event) (id : SessionId)
    (key : Nat) : Prop where
  next : ∃ p, ((new maxClients).perform acts).pumps[i]? = some p ∧ p.held = none ∧
    p.coming.head? = some e
  target : ((new maxClients).perform acts).aim = some id
  queue : ((new maxClients).perform acts).ledger.registry.control id = some key

variable {maxClients : Nat} {acts : List Act} {d : Dispatch} {id : SessionId} {i key : Nat}
  {p p' : Pump} {outlets' : List Outlet} {e : Event} {a : Act}

theorem perform_concat (d : Dispatch) (acts : List Act) (a : Act) :
    d.perform (acts ++ [a]) = (d.perform acts).act a := by
  rw [perform, perform, List.foldl_append, List.foldl_cons, List.foldl_nil]

/-! ## The target -/

theorem act_pump (hp : d.pumps[i]? = some p)
    (hstep : p.step d.ledger.registry d.pin d.outlets = some (p', outlets')) :
    d.act (.pump i) = { d with pumps := d.pumps.set i p', outlets := outlets' } := by
  simp only [act, hp, hstep]

theorem act_pump_cases (d : Dispatch) (i : Nat) : d.act (.pump i) = d ∨
    ∃ p p' outlets', d.pumps[i]? = some p ∧
      p.step d.ledger.registry d.pin d.outlets = some (p', outlets') ∧
      d.act (.pump i) = { d with pumps := d.pumps.set i p', outlets := outlets' } := by
  cases hp : d.pumps[i]? with
  | none => exact .inl (by simp only [act, hp])
  | some p =>
    cases hstep : p.step d.ledger.registry d.pin d.outlets with
    | none => exact .inl (by simp only [act, hp, hstep])
    | some next => exact .inr ⟨p, next.1, next.2, rfl, hstep, act_pump hp hstep⟩

/-- The registry is changed by what it is asked for, and by nothing else. -/
theorem ledger_act (d : Dispatch) (a : Act) : (d.act a).ledger = d.ledger.perform (asked [a]) := by
  cases a with
  | ask x => rfl
  | focus id =>
    simp only [act]
    split <;> rfl
  | pump i =>
    rcases d.act_pump_cases i with hsame | ⟨p, p', outlets', -, -, hact⟩
    · rw [hsame]
      rfl
    · rw [hact]
      rfl
  | forward events => rfl
  | attend outlets => rfl

theorem ledger_perform (maxClients : Nat) (acts : List Act) :
    ((new maxClients).perform acts).ledger = (Ledger.new maxClients).perform (asked acts) := by
  induction acts using List.reverseRecOn with
  | nil => rfl
  | append_singleton acts a ih =>
    have hasked : asked (acts ++ [a]) = asked acts ++ asked [a] := List.filterMap_append
    rw [perform_concat, ledger_act, ih, hasked]
    exact List.foldl_append.symm

theorem setFocus_of_live {x : Option SessionId}
    (h : ∀ id, x = some id → ∃ now, Live maxClients acts id now) :
    setFocus ((new maxClients).perform acts).ledger.registry x = .ok x := by
  cases x with
  | none => rfl
  | some id => rw [ledger_perform, setFocus, if_pos (Ledger.isSome_find?_iff.mpr (h id rfl))]

theorem setFocus_of_not_live (h : ∀ now, ¬ Live maxClients acts id now) :
    setFocus ((new maxClients).perform acts).ledger.registry (some id) = .error (.notFound id) := by
  rw [ledger_perform, setFocus, if_neg (mt Ledger.isSome_find?_iff.mp (not_exists.mpr h))]

theorem act_focus_of_live {x : Option SessionId}
    (h : ∀ id, x = some id → ∃ now, Live maxClients acts id now) :
    ((new maxClients).perform acts).act (.focus x) =
      { (new maxClients).perform acts with pin := x } := by
  simp only [act, setFocus_of_live h]

theorem act_focus_of_not_live (h : ∀ now, ¬ Live maxClients acts id now) :
    ((new maxClients).perform acts).act (.focus (some id)) = (new maxClients).perform acts := by
  simp only [act, setFocus_of_not_live h]

private theorem live_or_not (maxClients : Nat) (acts : List Act) (x : Option SessionId) :
    (∀ id, x = some id → ∃ now, Live maxClients acts id now) ∨
      ∃ id, x = some id ∧ ∀ now, ¬ Live maxClients acts id now := by
  by_cases h : ∀ id, x = some id → ∃ now, Live maxClients acts id now
  · exact .inl h
  · push Not at h
    exact .inr h

/-- What pins a session last: an act that does, or an earlier one that nothing has undone. -/
theorem pinned_concat : Pinned maxClients (acts ++ [a]) id ↔
    (a = .focus (some id) ∧ ∃ now, Live maxClients acts id now) ∨
      (Pinned maxClients acts id ∧ ∀ x, a = .focus x →
        ∃ other, x = some other ∧ ∀ now, ¬ Live maxClients acts other now) := by
  constructor
  · rintro ⟨before, after, hacts, hlive, hrefused⟩
    rcases Ledger.split_cases hacts with ⟨rfl, rfl, rfl⟩ | ⟨earlier, rfl, rfl⟩
    · exact .inl ⟨rfl, hlive⟩
    · refine .inr ⟨⟨before, earlier, rfl, hlive, fun between x rest hsplit ↦ ?_⟩, fun x hx ↦ ?_⟩
      · exact hrefused between x (rest ++ [a]) (by rw [hsplit, List.append_assoc, List.cons_append])
      · exact hrefused earlier x [] (by rw [hx])
  · rintro (⟨rfl, hlive⟩ | ⟨⟨before, after, rfl, hlive, hrefused⟩, hlast⟩)
    · refine ⟨acts, [], rfl, hlive, fun between x rest hsplit ↦ ?_⟩
      exact (List.append_ne_nil_of_right_ne_nil between (List.cons_ne_nil _ _) hsplit.symm).elim
    · refine ⟨before, after ++ [a], by simp, hlive, fun between x rest hsplit ↦ ?_⟩
      rcases Ledger.split_cases hsplit with ⟨rfl, hx, -⟩ | ⟨earlier, -, hafter⟩
      · exact hlast x hx.symm
      · exact hrefused between x earlier hafter

private theorem pin_act (h : ∀ x, a ≠ .focus x) : (d.act a).pin = d.pin := by
  cases a with
  | focus x => exact (h x rfl).elim
  | pump i =>
    rcases d.act_pump_cases i with hsame | ⟨p, p', outlets', -, -, hact⟩
    · rw [hsame]
    · rw [hact]
  | ask _ | forward _ | attend _ => rfl

/-- **The pin is what was pinned last.** -/
theorem pin_eq_some_iff (maxClients : Nat) (acts : List Act) (id : SessionId) :
    ((new maxClients).perform acts).pin = some id ↔ Pinned maxClients acts id := by
  -- A pin that is refused leaves the one before it, so the induction is on the last act.
  induction acts using List.reverseRecOn with
  | nil =>
    constructor
    · intro h
      nomatch h
    · rintro ⟨before, after, hacts, -⟩
      exact (List.append_ne_nil_of_right_ne_nil before (List.cons_ne_nil _ after) hacts.symm).elim
  | append_singleton acts a ih =>
    rw [perform_concat, pinned_concat, ← ih]
    cases a with
    | focus x =>
      rcases live_or_not maxClients acts x with hlive | ⟨other, rfl, hnot⟩
      · rw [act_focus_of_live hlive]
        constructor
        · rintro rfl
          exact .inl ⟨rfl, hlive id rfl⟩
        · rintro (⟨hx, -⟩ | ⟨-, hrefused⟩)
          · exact Act.focus.inj hx
          · obtain ⟨other, rfl, hnot⟩ := hrefused x rfl
            obtain ⟨now, hother⟩ := hlive other rfl
            exact (hnot now hother).elim
      · rw [act_focus_of_not_live hnot]
        constructor
        · exact fun hpin ↦ .inr ⟨hpin, fun y hy ↦ ⟨other, (Act.focus.inj hy).symm, hnot⟩⟩
        · rintro (⟨hx, now, hlive⟩ | ⟨hpin, -⟩)
          · obtain rfl := Option.some.inj (Act.focus.inj hx)
            exact (hnot now hlive).elim
          · exact hpin
    | ask _ | forward _ | pump _ | attend _ =>
      rw [pin_act (by simp)]
      simp

theorem aim_of_pinned {now : Instant} (hpin : Pinned maxClients acts id)
    (hlive : Live maxClients acts id now) : ((new maxClients).perform acts).aim = some id := by
  rw [aim, (pin_eq_some_iff maxClients acts id).mpr hpin, target, ledger_perform,
    if_pos (Ledger.isSome_find?_iff.mpr ⟨now, hlive⟩)]

/-- If no registered session is pinned, the target is the newest one. -/
theorem aim_of_not_pinned
    (h : ∀ id now, Pinned maxClients acts id → ¬ Live maxClients acts id now) :
    ((new maxClients).perform acts).aim =
      ((Ledger.new maxClients).perform (asked acts)).registry.newest := by
  rw [aim, target.eq_def, ledger_perform]
  split
  · rename_i id hpin
    rw [if_neg]
    intro hsome
    obtain ⟨now, hlive⟩ := Ledger.isSome_find?_iff.mp hsome
    exact h id now ((pin_eq_some_iff maxClients acts id).mp hpin) hlive
  · rfl

private theorem aim_eq_none_iff : ((new maxClients).perform acts).aim = none ↔
    ∀ id now, ¬ Live maxClients acts id now := by
  by_cases h : ∀ id now, Pinned maxClients acts id → ¬ Live maxClients acts id now
  · rw [aim_of_not_pinned h]
    exact Ledger.newest_eq_none_iff
  · push Not at h
    obtain ⟨id, now, hpin, hlive⟩ := h
    rw [aim_of_pinned hpin hlive]
    exact ⟨nofun, fun hnobody ↦ (hnobody id now hlive).elim⟩

/-! ## Events on their way -/

/-- What a pump carries after an act, it carried before, or the act is the turn in which it takes
that along. -/
theorem carried_or_taken (hp : (d.act a).pumps[i]? = some p) (hheld : p.held = some (e, id, key)) :
    (∃ q, d.pumps[i]? = some q ∧ q.held = some (e, id, key)) ∨
      a = .pump i ∧ (∃ q, d.pumps[i]? = some q ∧ q.held = none ∧ q.coming.head? = some e) ∧
        d.aim = some id ∧ d.ledger.registry.control id = some key := by
  cases a with
  | ask _ | attend _ => exact .inl ⟨p, hp, hheld⟩
  | focus x =>
    refine .inl ⟨p, ?_, hheld⟩
    simp only [act] at hp
    split at hp <;> exact hp
  | forward events =>
    simp only [act, List.getElem?_append] at hp
    split at hp
    · exact .inl ⟨p, hp, hheld⟩
    · obtain rfl := List.mem_singleton.mp (List.mem_of_getElem? hp)
      cases hheld
  | pump j =>
    rcases d.act_pump_cases j with hsame | ⟨q, q', outlets', hq, hstep, hact⟩
    · exact .inl ⟨p, hsame ▸ hp, hheld⟩
    rw [hact] at hp
    by_cases hij : j = i
    · subst hij
      obtain ⟨hlt, -⟩ := List.getElem?_eq_some_iff.mp hq
      rw [List.getElem?_set_self hlt] at hp
      obtain rfl := Option.some.inj hp
      -- Of the moves of a pump, only one leaves it with an event to carry.
      cases Pump.moves_of_step hstep with
      | takes hfree hcoming htarget hcontrol =>
        obtain ⟨rfl, rfl, rfl⟩ : _ = e ∧ _ = id ∧ _ = key := by simpa using hheld
        exact .inr ⟨rfl, ⟨q, hq, hfree, by rw [hcoming]; rfl⟩, htarget, hcontrol⟩
      | passes | misses | hands | fails => cases hheld
    · rw [List.getElem?_set_ne hij] at hp
      exact .inl ⟨p, hp, hheld⟩

private theorem exists_takes (hp : ((new maxClients).perform acts).pumps[i]? = some p)
    (hheld : p.held = some (e, id, key)) :
    ∃ before after, acts = before ++ .pump i :: after ∧ Takes maxClients before i e id key := by
  induction acts using List.reverseRecOn generalizing p with
  | nil => cases hp
  | append_singleton acts a ih =>
    rw [perform_concat] at hp
    rcases carried_or_taken hp hheld with ⟨q, hq, hheld⟩ | ⟨rfl, hnext, htarget, hqueue⟩
    · obtain ⟨before, after, rfl, htakes⟩ := ih hq hheld
      exact ⟨before, after ++ [a], by simp, htakes⟩
    · exact ⟨acts, [], rfl, hnext, htarget, hqueue⟩

private theorem act_pump_of_coming {coming : List Event} (hp : d.pumps[i]? = some p)
    (hheld : p.held = none) (hcoming : p.coming = e :: coming) :
    (d.act (.pump i)).outlets = d.outlets ∧
      (d.act (.pump i)).pumps[i]? = some (match d.aim with
        | none => { p with coming }.note .nobody
        | some id =>
          match d.ledger.registry.control id with
          | none => { p with coming }.note (.refused (.notFound id))
          | some key => { p with coming, held := some (e, id, key) }) := by
  obtain ⟨hlt, -⟩ := List.getElem?_eq_some_iff.mp hp
  rw [act_pump hp (Pump.step_of_coming hheld hcoming)]
  exact ⟨rfl, List.getElem?_set_self hlt⟩

/-- A pump that carries an event hears from its queue what becomes of it. -/
theorem pumps_act_pump {out : Outlet} (hp : d.pumps[i]? = some p)
    (hheld : p.held = some (e, id, key)) (hout : d.outlets[key]? = some out) :
    (d.act (.pump i)).pumps[i]? = some (p.answered (out.hand id e).1) := by
  obtain ⟨hlt, -⟩ := List.getElem?_eq_some_iff.mp hp
  simp only [act, hp, Pump.step, hheld, Pump.retry, handTo, hout]
  cases (out.hand id e).1 with
  | wait => exact hp
  | done | refused => exact List.getElem?_set_self hlt

theorem outlets_act_pump (hp : d.pumps[i]? = some p) (hheld : p.held = some (e, id, key)) :
    (d.act (.pump i)).outlets = (handTo d.outlets key id e).2 := by
  rcases handTo_cases d.outlets key id e with
    ⟨_, _, _, -, -, -, hhand⟩ | ⟨-, hhand⟩ | hhand
  all_goals simp only [act, hp, Pump.step, hheld, Pump.retry, hhand]

/-- **Events go to their target, and to nobody else.** At every moment, the target is the pinned
session if it is registered. Otherwise it is a registered session such that none has been registered
later, and there is no target exactly if nobody is registered. The pin is what was pinned last: to
pin a session fails, and changes nothing, exactly if it is not registered. A pump that carries
nothing takes the next event along for the target, and no queue changes. A pump that carries an
event changes no queue but that of the session which was the target when it took the event: the
pinned one, if that was registered then. That queue takes the event or discards it, has been closed,
or lets it wait, as `Outlet.Hands` has it; and the pump notes what it was, or waits. -/
theorem forwards_to_target (maxClients : Nat) (acts : List Act) :
    let d := (new maxClients).perform acts
    ((∀ id now, Pinned maxClients acts id → Live maxClients acts id now → d.aim = some id) ∧
      ((∀ id now, Pinned maxClients acts id → ¬ Live maxClients acts id now) →
        ∀ id, d.aim = some id → ∃ now, Live maxClients acts id now ∧
          ∀ other now', Live maxClients acts other now' → now' ≤ now) ∧
      (d.aim = none ↔ ∀ id now, ¬ Live maxClients acts id now)) ∧
    ((∀ id, d.pin = some id ↔ Pinned maxClients acts id) ∧
      (∀ id, (∀ now, ¬ Live maxClients acts id now) →
        setFocus d.ledger.registry (some id) = .error (.notFound id) ∧
          d.act (.focus (some id)) = d) ∧
      ∀ x, (∀ id, x = some id → ∃ now, Live maxClients acts id now) →
        setFocus d.ledger.registry x = .ok x ∧ d.act (.focus x) = { d with pin := x }) ∧
    ∀ i p, d.pumps[i]? = some p →
      (∀ e coming, p.held = none → p.coming = e :: coming →
        (d.act (.pump i)).outlets = d.outlets ∧
          (d.act (.pump i)).pumps[i]? = some (match d.aim with
            | none => { p with coming }.note .nobody
            | some id =>
              match d.ledger.registry.control id with
              | none => { p with coming }.note (.refused (.notFound id))
              | some key => { p with coming, held := some (e, id, key) })) ∧
      ∀ e id key, p.held = some (e, id, key) →
        (d.act (.pump i)).outlets[key]? = d.outlets[key]?.map (fun out ↦ (out.hand id e).2) ∧
        (∀ out, d.outlets[key]? = some out → ∃ handed out', out.Hands id e handed out' ∧
          (d.act (.pump i)).outlets[key]? = some out' ∧
          (d.act (.pump i)).pumps[i]? = some (p.answered handed)) ∧
        (∀ other, other ≠ key → (d.act (.pump i)).outlets[other]? = d.outlets[other]?) ∧
        ∃ before after, acts = before ++ .pump i :: after ∧
          Takes maxClients before i e id key ∧
          ∀ pinned now, Pinned maxClients before pinned → Live maxClients before pinned now →
            pinned = id := by
  intro d
  refine ⟨⟨fun _ _ ↦ aim_of_pinned, fun hfree id haim ↦ ?_, aim_eq_none_iff⟩,
    ⟨pin_eq_some_iff maxClients acts,
      fun id hnot ↦ ⟨setFocus_of_not_live hnot, act_focus_of_not_live hnot⟩,
      fun x hlive ↦ ⟨setFocus_of_live hlive, act_focus_of_live hlive⟩⟩,
    fun i p hp ↦ ⟨fun e coming ↦ act_pump_of_coming hp, fun e id key hheld ↦ ?_⟩⟩
  · exact Ledger.live_of_newest ((aim_of_not_pinned hfree).symm.trans haim)
  · have houtlet : (d.act (.pump i)).outlets[key]? =
        d.outlets[key]?.map (fun out ↦ (out.hand id e).2) := by
      rw [outlets_act_pump hp hheld, getElem?_handTo, if_pos rfl]
    refine ⟨houtlet, fun out hout ↦ ?_, fun other hother ↦ ?_, ?_⟩
    · rw [hout] at houtlet
      exact ⟨_, _, out.hands_hand id e, houtlet, pumps_act_pump hp hheld hout⟩
    · rw [outlets_act_pump hp hheld, getElem?_handTo, if_neg hother]
    · -- The target may be another one by now; what counts is the turn at which the event was taken.
      obtain ⟨before, after, hacts, htakes⟩ := exists_takes hp hheld
      refine ⟨before, after, hacts, htakes, fun pinned now hpinned hlive ↦ ?_⟩
      exact Option.some.inj ((aim_of_pinned hpinned hlive).symm.trans htakes.target)

/-- Two sessions are registered. An event is taken for the older one, which is pinned, and then the
other one is pinned before there was a turn to hand it on. -/
theorem forwards_to_target_taken :
    let older : SessionId := ⟨⟨List.replicate 16 1, rfl⟩⟩
    let newer : SessionId := ⟨⟨List.replicate 16 2, rfl⟩⟩
    let peer (key : Nat) : Newcomer :=
      ⟨⟨⟨List.replicate 16 8, rfl⟩, "laptop", 0⟩, ⟨1, 0⟩, some key⟩
    let press : Event := .key 30 true ⟨0⟩ 5
    let acts : List Act := [.ask (.create [older] (peer 0) 1), .ask (.create [newer] (peer 1) 2),
      .attend [.new 1, .new 1], .focus (some older), .forward [press], .pump 0,
      .focus (some newer)]
    let d := (new 4).perform acts
    d.aim = some newer ∧ (d.act (.pump 0)).outlets[0]?.map (·.queue.events) = some [press] ∧
      (d.act (.pump 0)).outlets[1]? = some (.new 1) ∧
      ∃ before after, acts = before ++ .pump 0 :: after ∧ Takes 4 before 0 press older 0 := by
  intro older newer peer press acts d
  have hpump : d.pumps[0]? = some ⟨some (press, older, 0), [], []⟩ := by decide +kernel
  obtain ⟨-, -, hpumps⟩ := forwards_to_target 4 acts
  obtain ⟨-, hheld⟩ := hpumps 0 _ hpump
  obtain ⟨hqueue, -, hothers, before, after, hacts, htakes, -⟩ := hheld press older 0 rfl
  refine ⟨by decide +kernel, ?_, (hothers 1 (by decide)).trans (by decide +kernel), before, after,
    hacts, htakes⟩
  rw [hqueue]
  decide +kernel

end Dispatch

end DeskLink.Server
