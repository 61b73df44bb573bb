import Mathlib.Data.List.Nodup
import Mathlib.Data.List.Perm.Subperm
import DeskLink.Proofs.Handshake.Holding
import DeskLink.Proofs.Server.Moves

/-!
# The registry and its tenants

The registry does not say which connection reserved a place, and a connection does not look into the
registry to see what it holds there. They agree all the same: the places that are reserved are as
many as the connections that hold one, and the sessions are those of the connections that have
registered one and are not over. This is the `Tally`.

A move that concerns the registry is a trade: a connection is given a place, its place becomes a
session, or it is over and gives back what it holds (`Trades`). Each of them keeps the tally,
because the registry and the connection change together. Since no two sessions have one name, a
connection that takes its session out takes nobody else's.
-/

namespace DeskLink.Server

open Handshake (Conduct Holding)

/-! ## The registry -/

namespace Registry

variable {r : Registry} {id : SessionId}

private theorem tag_unique (h : r.names.Nodup) {k k' : Option Nat} (hk : (id, k) ∈ r.tags)
    (hk' : (id, k') ∈ r.tags) : k = k' := by
  rw [names_eq] at h
  exact congrArg Prod.snd (List.inj_on_of_nodup_map h hk hk' rfl)

/-- The registry after a session is taken out and a place is given back. -/
def vacated (r : Registry) (tenant : Option SessionId) (place : Bool) : Registry :=
  let r := match tenant with
    | some id => (r.remove id).2
    | none => r
  if place then r.release else r

theorem tags_vacated (r : Registry) (tenant : Option SessionId) (place : Bool) :
    (r.vacated tenant place).tags = r.tags.filter fun t ↦ tenant != some t.1 := by
  have hplace : (r.vacated tenant place).tags = (r.vacated tenant false).tags := by
    cases place <;> rfl
  rw [hplace]
  cases tenant with
  | none => exact (List.filter_eq_self.mpr fun _ _ ↦ rfl).symm
  | some id =>
    simp only [vacated, Bool.false_eq_true, if_false, tags_remove]
    refine List.filter_congr fun t _ ↦ ?_
    simp [bne, eq_comm]

theorem reserved_vacated (r : Registry) (tenant : Option SessionId) (place : Bool) :
    (r.vacated tenant place).reserved = r.reserved - place.toNat := by
  cases tenant <;> cases place <;> rfl

@[simp] theorem maxClients_vacated (r : Registry) (tenant : Option SessionId) (place : Bool) :
    (r.vacated tenant place).maxClients = r.maxClients := by
  cases tenant <;> cases place <;> rfl

theorem reserve_times {n : Nat} (h : r.occupied + n ≤ r.maxClients) :
    (List.replicate n ()).foldlM (fun r _ ↦ reserve r) r =
      .ok { r with reserved := r.reserved + n } := by
  induction n generalizing r with
  | zero => rfl
  | succ n ih =>
    have hroom : r.occupied < r.maxClients := by omega
    rw [List.replicate_succ, List.foldlM_cons, reserve_of_lt hroom, ok_bind, ih]
    · simp only [Nat.add_assoc, Nat.add_comm 1]
    · simp only [occupied] at h ⊢
      omega

end Registry

/-! ## What a connection holds -/

namespace Connection

variable {c c' : Connection}

@[simp] theorem reserved_counted (c : Connection) : c.counted.reserved = c.reserved := by
  unfold counted
  split <;> rfl

@[simp] theorem registered_counted (c : Connection) : c.counted.registered = c.registered := by
  unfold counted
  split <;> rfl

/-- The session a connection is the tenant of: what it has registered, until it is over. -/
def tenant? (c : Connection) : Option SessionId :=
  match c.stage with
  | .ended _ => none
  | _ => c.registered

@[simp] theorem tenant?_counted (c : Connection) : c.counted.tenant? = c.tenant? := by
  simp only [tenant?, stage_counted, registered_counted]

theorem of_tenant? {id : SessionId} (h : c.tenant? = some id) :
    c.result? = none ∧ c.registered = some id := by
  unfold tenant? at h
  unfold result?
  cases hstage : c.stage with
  | negotiating conduct => exact ⟨rfl, by simpa only [hstage] using h⟩
  | running w => exact ⟨rfl, by simpa only [hstage] using h⟩
  | ended result => simp [hstage] at h

/-- The connection has it written down that it holds this. -/
def Holds (c : Connection) : Holding → Prop
  | .nothing => c.reserved = false ∧ c.registered = none
  | .place => c.reserved = true ∧ c.registered = none
  | .session id => c.reserved = false ∧ c.registered = some id

theorem Holds.of_eq {holding : Holding} (h : c.Holds holding) (hreserved : c'.reserved = c.reserved)
    (hregistered : c'.registered = c.registered) : c'.Holds holding := by
  cases holding <;> simpa only [Holds, hreserved, hregistered] using h

/-- What a connection has written down is what its handshake or its session holds. -/
def Keeps (c : Connection) : Prop :=
  match c.stage with
  | .negotiating conduct => ∃ holding, conduct.Stands holding ∧ c.Holds holding
  | .running w => c.Holds (.session w.session)
  | .ended _ => c.reserved = false

@[simp] theorem result?_counted (c : Connection) : c.counted.result? = c.result? := by
  simp only [result?, stage_counted]

theorem Keeps.counted (h : c.Keeps) : c.counted.Keeps := by
  unfold Keeps at h ⊢
  rw [stage_counted]
  split
  · rename_i conduct hstage
    rw [hstage] at h
    obtain ⟨holding, hstands, hholds⟩ := h
    exact ⟨holding, hstands, hholds.of_eq (reserved_counted c) (registered_counted c)⟩
  · rename_i w hstage
    rw [hstage] at h
    exact h.of_eq (reserved_counted c) (registered_counted c)
  · rename_i result hstage
    rw [hstage] at h
    exact (reserved_counted c).trans h

end Connection

/-! ## The tally -/

/-- What a move of the connection with this index does to the registry and to the connection. -/
inductive Trades (i : Nat) (r : Registry) (c : Connection) : Registry → Connection → Prop where
  | keeps {r' : Registry} {c' : Connection} (htags : r'.tags = r.tags)
      (hreserved : r'.reserved = r.reserved) (hmax : r'.maxClients = r.maxClients)
      (hplace : c'.reserved = c.reserved) (htenant : c'.tenant? = c.tenant?) : Trades i r c r' c'
  /-- The connection is given a place. -/
  | reserves {c' : Connection} (hroom : r.occupied < r.maxClients) (hplace : c.reserved = false)
      (hplace' : c'.reserved = true) (htenant : c'.tenant? = c.tenant?) :
      Trades i r c { r with reserved := r.reserved + 1 } c'
  /-- Its place becomes a session. -/
  | registers {id : SessionId} {n : Newcomer} {now : Instant} {c' : Connection}
      (hunused : r.find? id = none) (hcontrol : n.control = some i) (hplace : c.reserved = true)
      (hplace' : c'.reserved = false) (htenant : c.tenant? = none)
      (htenant' : c'.tenant? = some id) : Trades i r c (r.release.added id n now) c'
  /-- It is over, and gives back what it holds. -/
  | leaves {c' : Connection} (hplace' : c'.reserved = false) (htenant' : c'.tenant? = none)
      (hover : c'.result?.isSome) : Trades i r c (r.vacated c.tenant? c.reserved) c'

/-- The registry and the connections agree on who holds what. -/
structure Tally (r : Registry) (connections : List Connection) : Prop where
  bounded : r.occupied ≤ r.maxClients
  names : r.names.Nodup
  reserved_eq : r.reserved = connections.countP (·.reserved)
  tenants : ∀ (id : SessionId) (k : Option Nat), (id, k) ∈ r.tags ↔
    ∃ i, k = some i ∧ connections[i]?.bind Connection.tenant? = some id

section Tally

variable {r r' : Registry} {connections : List Connection} {i : Nat} {c c' : Connection}

theorem countP_set_add {α : Type} {l : List α} {x y : α} (p : α → Bool) (hx : l[i]? = some x) :
    (l.set i y).countP p + (p x).toNat = l.countP p + (p y).toNat := by
  induction l generalizing i with
  | nil => cases hx
  | cons first rest ih =>
    cases i with
    | zero =>
      obtain rfl := Option.some.inj hx
      rw [List.set_cons_zero, List.countP_cons, List.countP_cons]
      cases p first <;> cases p y <;> simp
    | succ i =>
      rw [List.set_cons_succ, List.countP_cons, List.countP_cons]
      have hrest := ih hx
      omega

theorem tenant_set (hc : connections[i]? = some c) (j : Nat) :
    (connections.set i c')[j]?.bind Connection.tenant? =
      if i = j then c'.tenant? else connections[j]?.bind Connection.tenant? := by
  obtain ⟨hlt, -⟩ := List.getElem?_eq_some_iff.mp hc
  split
  · rename_i hsame
    subst hsame
    rw [List.getElem?_set_self hlt, Option.bind_some]
  · rw [List.getElem?_set_ne ‹_›]

theorem Trades.counted (h : Trades i r c r' c') : Trades i r c r' c'.counted := by
  cases h with
  | keeps htags hreserved hmax hplace htenant =>
    exact .keeps htags hreserved hmax (by simp [hplace]) (by simp [htenant])
  | reserves hroom hplace hplace' htenant =>
    exact .reserves hroom hplace (by simp [hplace']) (by simp [htenant])
  | registers hunused hcontrol hplace hplace' htenant htenant' =>
    exact .registers hunused hcontrol hplace (by simp [hplace']) htenant (by simp [htenant'])
  | leaves hplace' htenant' hover =>
    exact .leaves (by simp [hplace']) (by simp [htenant']) (by simpa using hover)

theorem Trades.maxClients_eq (h : Trades i r c r' c') : r'.maxClients = r.maxClients := by
  cases h with
  | keeps _ _ hmax => exact hmax
  | reserves | registers => rfl
  | leaves => exact r.maxClients_vacated ..

theorem tenant_set_same (hc : connections[i]? = some c) (htenant : c'.tenant? = c.tenant?)
    (j : Nat) : (connections.set i c')[j]?.bind Connection.tenant? =
      connections[j]?.bind Connection.tenant? := by
  rw [tenant_set hc]
  split
  · rename_i hsame
    rw [← hsame, hc, htenant, Option.bind_some]
  · rfl

namespace Tally

variable (h : Tally r connections) (hc : connections[i]? = some c)

include h hc

theorem keeps (htags : r'.tags = r.tags) (hreserved : r'.reserved = r.reserved)
    (hmax : r'.maxClients = r.maxClients) (hplace : c'.reserved = c.reserved)
    (htenant : c'.tenant? = c.tenant?) : Tally r' (connections.set i c') where
  bounded := by
    rw [Registry.occupied_eq, htags, hreserved, hmax, ← Registry.occupied_eq]
    exact h.bounded
  names := by
    rw [Registry.names_eq, htags, ← Registry.names_eq]
    exact h.names
  reserved_eq := by
    have hcount := countP_set_add (y := c') (·.reserved) hc
    simp only [hplace] at hcount
    rw [hreserved, h.reserved_eq, Nat.add_right_cancel hcount]
  tenants id k := by
    simp only [htags, tenant_set_same hc htenant]
    exact h.tenants id k

theorem reserves (hroom : r.occupied < r.maxClients) (hplace : c.reserved = false)
    (hplace' : c'.reserved = true) (htenant : c'.tenant? = c.tenant?) :
    Tally { r with reserved := r.reserved + 1 } (connections.set i c') where
  bounded := hroom
  names := h.names
  reserved_eq := by
    have hcount := countP_set_add (y := c') (·.reserved) hc
    simp only [hplace, hplace', Bool.toNat_false, Bool.toNat_true, Nat.add_zero] at hcount
    rw [hcount, ← h.reserved_eq]
  tenants id k := by
    simp only [tenant_set_same hc htenant]
    exact h.tenants id k

theorem registers {id : SessionId} {n : Newcomer} {now : Instant} (hunused : r.find? id = none)
    (hcontrol : n.control = some i) (hplace : c.reserved = true) (hplace' : c'.reserved = false)
    (htenant : c.tenant? = none) (htenant' : c'.tenant? = some id) :
    Tally (r.release.added id n now) (connections.set i c') := by
  have hcount := countP_set_add (y := c') (·.reserved) hc
  simp only [hplace, hplace', Bool.toNat_false, Bool.toNat_true, Nat.add_zero] at hcount
  have hreserved := h.reserved_eq
  refine ⟨?_, ?_, ?_, fun id' k ↦ ?_⟩
  · have hbounded := h.bounded
    simp only [Registry.occupied, Registry.added, Registry.release, List.length_append,
      List.length_singleton] at hbounded ⊢
    omega
  · exact Registry.nodup_names_added (r := r.release) h.names hunused n now
  · simp only [Registry.added, Registry.release]
    omega
  · rw [Registry.tags_added, Registry.tags_release, hcontrol, List.mem_append, h.tenants,
      List.mem_singleton]
    constructor
    · rintro (⟨j, rfl, hj⟩ | heq)
      · -- Who was a tenant before is another one, since this one held a place.
        have hne : i ≠ j := by
          rintro rfl
          rw [hc, Option.bind_some, htenant] at hj
          cases hj
        exact ⟨j, rfl, by rwa [tenant_set hc, if_neg hne]⟩
      · obtain ⟨rfl, rfl⟩ := Prod.mk.inj heq
        exact ⟨i, rfl, by rwa [tenant_set hc, if_pos rfl]⟩
    · rintro ⟨j, rfl, hj⟩
      rw [tenant_set hc] at hj
      split at hj
      · rename_i hsame
        rw [htenant'] at hj
        exact .inr (by rw [hsame, Option.some.inj hj])
      · exact .inl ⟨j, rfl, hj⟩

theorem leaves (hplace' : c'.reserved = false) (htenant' : c'.tenant? = none) :
    Tally (r.vacated c.tenant? c.reserved) (connections.set i c') := by
  have hcount := countP_set_add (y := c') (·.reserved) hc
  simp only [hplace', Bool.toNat_false, Nat.add_zero] at hcount
  have hreserved := h.reserved_eq
  have hown : connections[i]?.bind Connection.tenant? = c.tenant? := by rw [hc, Option.bind_some]
  refine ⟨?_, ?_, ?_, fun id k ↦ ?_⟩
  · have hbounded := h.bounded
    rw [Registry.occupied_eq] at hbounded
    rw [Registry.occupied_eq, Registry.tags_vacated, Registry.reserved_vacated,
      Registry.maxClients_vacated]
    have hlength := r.tags.length_filter_le fun t ↦ c.tenant? != some t.1
    omega
  · exact Registry.nodup_names_filter h.names (Registry.tags_vacated ..)
  · rw [Registry.reserved_vacated]
    omega
  · rw [Registry.tags_vacated, List.mem_filter, h.tenants, bne_iff_ne]
    constructor
    · rintro ⟨⟨j, rfl, hj⟩, hother⟩
      have hne : i ≠ j := by
        rintro rfl
        exact hother (hown ▸ hj)
      exact ⟨j, rfl, by rwa [tenant_set hc, if_neg hne]⟩
    · rintro ⟨j, rfl, hj⟩
      rw [tenant_set hc] at hj
      split at hj
      · rw [htenant'] at hj
        cases hj
      · rename_i hne
        refine ⟨⟨j, rfl, hj⟩, fun htenant ↦ hne ?_⟩
        -- Two connections with one session would be found under two keys.
        have hi : (id, some i) ∈ r.tags := (h.tenants ..).mpr ⟨i, rfl, hown.trans htenant⟩
        have hj' : (id, some j) ∈ r.tags := (h.tenants ..).mpr ⟨j, rfl, hj⟩
        exact Option.some.inj (Registry.tag_unique h.names hi hj')

theorem trades (htrades : Trades i r c r' c') : Tally r' (connections.set i c') := by
  cases htrades with
  | keeps htags hreserved hmax hplace htenant =>
    exact h.keeps hc htags hreserved hmax hplace htenant
  | reserves hroom hplace hplace' htenant => exact h.reserves hc hroom hplace hplace' htenant
  | registers hunused hcontrol hplace hplace' htenant htenant' =>
    exact h.registers hc hunused hcontrol hplace hplace' htenant htenant'
  | leaves hplace' htenant' _ => exact h.leaves hc hplace' htenant'

end Tally

theorem Tally.arrives (h : Tally r connections) (hplace : c.reserved = false)
    (htenant : c.tenant? = none) : Tally r (connections ++ [c]) where
  bounded := h.bounded
  names := h.names
  reserved_eq := by
    rw [h.reserved_eq, List.countP_append, List.countP_singleton, hplace]
    rfl
  tenants id k := by
    rw [h.tenants]
    refine exists_congr fun j ↦ and_congr_right fun _ ↦ ?_
    rw [List.getElem?_append]
    split
    · rfl
    · rename_i hge
      rw [List.getElem?_eq_none (Nat.not_lt.mp hge), List.getElem?_singleton]
      split <;> simp [htenant]

/-! ## How many there can be -/

private theorem length_le_countP {α : Type} {l : List α} {p : α → Bool} {places : List Nat}
    (hplaces : places.Nodup) (h : ∀ i ∈ places, l[i]?.any p = true) :
    places.length ≤ l.countP p := by
  have hsubset : places ⊆ (l.zipIdx.filter (p ·.1)).map (·.2) := by
    intro i hi
    obtain ⟨x, hx, hpx⟩ := (Option.any_eq_true _ _).mp (h i hi)
    exact List.mem_map.mpr
      ⟨(x, i), List.mem_filter.mpr ⟨List.mem_zipIdx_iff_getElem?.mpr hx, hpx⟩, rfl⟩
  calc places.length
    _ ≤ ((l.zipIdx.filter (p ·.1)).map (·.2)).length := (hplaces.subperm hsubset).length_le
    _ = l.zipIdx.countP (p ·.1) := by rw [List.length_map, List.countP_eq_length_filter]
    _ = (l.zipIdx.map (·.1)).countP p := List.countP_map.symm
    _ = l.countP p := by rw [List.zipIdx_map_fst]

private theorem Tally.length_tenants (h : Tally r connections) {tenants : List Nat}
    (hnodup : tenants.Nodup)
    (htenants : ∀ i ∈ tenants, (connections[i]?.bind Connection.tenant?).isSome) :
    tenants.length ≤ r.tags.length := by
  have hsubset : tenants.map some ⊆ r.tags.map (·.2) := by
    intro k hk
    obtain ⟨i, hi, rfl⟩ := List.mem_map.mp hk
    obtain ⟨id, hid⟩ := Option.isSome_iff_exists.mp (htenants i hi)
    exact List.mem_map.mpr ⟨(id, some i), (h.tenants ..).mpr ⟨i, rfl, hid⟩, rfl⟩
  have hlength := ((hnodup.map fun _ _ ↦ Option.some.inj).subperm hsubset).length_le
  rwa [List.length_map, List.length_map] at hlength

/-- Those that hold a place or a session are not more than the registry has room for. -/
theorem Tally.length_holders (h : Tally r connections) {holders : List Nat}
    (hnodup : holders.Nodup) (hholders : ∀ i ∈ holders, ∃ c, connections[i]? = some c ∧
      (c.reserved = true ∨ c.tenant?.isSome)) : holders.length ≤ r.maxClients := by
  -- Each of them is counted among the places or among the sessions, and never twice.
  let places := holders.filter fun i ↦ connections[i]?.any (·.reserved)
  let tenants := holders.filter fun i ↦ !connections[i]?.any (·.reserved)
  have hplaces : places.length ≤ r.reserved := by
    rw [h.reserved_eq]
    exact length_le_countP (hnodup.filter _) fun i hi ↦ (List.mem_filter.mp hi).2
  have htenants : tenants.length ≤ r.tags.length := by
    refine h.length_tenants (hnodup.filter _) fun i hi ↦ ?_
    obtain ⟨hi, hnone⟩ := List.mem_filter.mp hi
    obtain ⟨c, hc, hholds⟩ := hholders i hi
    rw [hc] at hnone ⊢
    exact hholds.resolve_left (by simpa using hnone)
  calc holders.length
    _ = places.length + tenants.length := List.length_eq_length_filter_add _
    _ ≤ r.reserved + r.tags.length := Nat.add_le_add hplaces htenants
    _ = r.occupied := by rw [r.occupied_eq, Nat.add_comm]
    _ ≤ r.maxClients := h.bounded

end Tally

end DeskLink.Server
