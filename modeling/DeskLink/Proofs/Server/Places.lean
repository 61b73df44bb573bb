import Mathlib.Data.Nat.Find
import DeskLink.Server.Registry

/-!
# Places and who holds them

The registry only counts the places that are reserved. Who holds one is not written down in it: a
reservation is handed out, and sooner or later it is committed or given back, once. A `Ledger` is
the registry together with the reservations that are out, under the numbers in which they were
handed out, and `Ledger.Act` lists what can be asked of it, in any order.

The count and the reservations agree at all times (`Ledger.Balanced`). So no subtraction is cut off
at zero, a commit takes exactly the place that was kept for it, and a place is free when sessions
and reservations together leave one.

The generator of names may repeat itself, and may repeat a name that is in use. Such a name is
passed over, and a session is always registered behind those that are there.
-/

namespace DeskLink.Server

namespace Registry

variable {r r' : Registry} {n : Newcomer} {now : Instant}

/-! ## What each operation does -/

def added (r : Registry) (id : SessionId) (n : Newcomer) (now : Instant) : Registry :=
  { r with entries := r.entries ++ [⟨.start id n.peer n.version now, n.control⟩] }

theorem reserve_of_lt (h : r.occupied < r.maxClients) :
    r.reserve = .ok { r with reserved := r.reserved + 1 } := if_neg (Nat.not_le.mpr h)

theorem reserve_of_le (h : r.maxClients ≤ r.occupied) : r.reserve = .error .capacityExceeded :=
  if_pos h

theorem reserve_eq_ok (h : r.reserve = .ok r') :
    r.occupied < r.maxClients ∧ r' = { r with reserved := r.reserved + 1 } := by
  rcases Nat.lt_or_ge r.occupied r.maxClients with hlt | hge
  · rw [reserve_of_lt hlt] at h
    exact ⟨hlt, (Except.ok.inj h).symm⟩
  · rw [reserve_of_le hge] at h
    cases h

theorem insert?_eq_some {ids : List SessionId} {id : SessionId}
    (h : r.insert? ids n now = some (id, r')) : r.find? id = none ∧ r' = r.added id n now := by
  obtain ⟨id', hfind, heq⟩ := Option.map_eq_some_iff.mp h
  obtain ⟨rfl, rfl⟩ := Prod.mk.inj heq
  have hunused : (r.find? id').isNone := by simpa using List.find?_some hfind
  exact ⟨Option.isNone_iff_eq_none.mp hunused, rfl⟩

theorem commit?_eq_some {ids : List SessionId} {id : SessionId}
    (h : r.commit? ids n now = some (id, r')) :
    r.find? id = none ∧ r' = r.release.added id n now := insert?_eq_some h

private theorem create?_of_le (ids : List SessionId) (h : r.maxClients ≤ r.occupied) :
    r.create? ids n now = .error .capacityExceeded := if_pos h

theorem create?_eq_ok {ids : List SessionId} {id : SessionId}
    (h : r.create? ids n now = .ok (id, r')) :
    r.occupied < r.maxClients ∧ r.find? id = none ∧ r' = r.added id n now := by
  unfold create? at h
  split at h
  · cases h
  split at h
  · rename_i hle _ _ hinsert
    exact ⟨Nat.not_le.mp hle, insert?_eq_some (Except.ok.inj h ▸ hinsert)⟩
  · cases h

/-- A session is registered under the first of these names that is not in use, however many more
names are drawn. -/
theorem insert?_of_first {names : Nat → SessionId} {j m : Nat} (hunused : r.find? (names j) = none)
    (hfirst : ∀ i < j, r.find? (names i) ≠ none) (hm : j < m) :
    r.insert? ((List.range m).map names) n now = some (names j, r.added (names j) n now) := by
  have hfind : (List.range m).find? (fun i ↦ (r.find? (names i)).isNone) = some j := by
    refine List.find?_range_eq_some.mpr ⟨by rw [hunused]; rfl, List.mem_range.mpr hm, ?_⟩
    intro i hi
    simpa [Option.isSome_iff_ne_none] using hfirst i hi
  rw [insert?, List.find?_map, Function.comp_def, hfind]
  rfl

private theorem commit?_of_first {names : Nat → SessionId} {j m : Nat}
    (hunused : r.find? (names j) = none) (hfirst : ∀ i < j, r.find? (names i) ≠ none) (hm : j < m) :
    r.commit? ((List.range m).map names) n now =
      some (names j, r.release.added (names j) n now) :=
  insert?_of_first (r := r.release) hunused hfirst hm

private theorem create?_of_first {names : Nat → SessionId} {j m : Nat}
    (hunused : r.find? (names j) = none) (hfirst : ∀ i < j, r.find? (names i) ≠ none) (hm : j < m)
    (hlt : r.occupied < r.maxClients) :
    r.create? ((List.range m).map names) n now = .ok (names j, r.added (names j) n now) := by
  rw [create?, if_neg (Nat.not_le.mpr hlt), insert?_of_first hunused hfirst hm]

/-- Of the names in a stream that are not in use, one is the first. -/
theorem exists_first {names : Nat → SessionId} (h : ∃ k, r.find? (names k) = none) :
    ∃ j, r.find? (names j) = none ∧ ∀ i < j, r.find? (names i) ≠ none :=
  ⟨Nat.find h, Nat.find_spec h, fun _ hi ↦ Nat.find_min h hi⟩

/-! ## Who is registered -/

/-- The sessions by name, each with the key of its outlet. -/
def tags (r : Registry) : List (SessionId × Option Nat) :=
  r.entries.map fun e ↦ (e.record.session, e.control)

def names (r : Registry) : List SessionId := r.entries.map (·.record.session)

theorem names_eq (r : Registry) : r.names = r.tags.map (·.1) := by
  rw [names, tags, List.map_map]
  rfl

theorem occupied_eq (r : Registry) : r.occupied = r.tags.length + r.reserved := by
  rw [occupied, tags, List.length_map]

theorem find?_eq_none {id : SessionId} : r.find? id = none ↔ id ∉ r.names := by
  simp [find?, names, List.find?_eq_none]

@[simp] theorem tags_release (r : Registry) : r.release.tags = r.tags := rfl

@[simp] theorem tags_added (r : Registry) (id : SessionId) (n : Newcomer) (now : Instant) :
    (r.added id n now).tags = r.tags ++ [(id, n.control)] := by simp [tags, added, Record.start]

@[simp] theorem tags_update (r : Registry) (s : Snapshot) : (r.update s).tags = r.tags := by
  rw [tags, update, List.map_map]
  refine List.map_congr_left fun e _ ↦ ?_
  simp only [Function.comp_apply]
  split <;> rfl

@[simp] theorem names_update (r : Registry) (s : Snapshot) : (r.update s).names = r.names := by
  rw [names_eq, tags_update, ← names_eq]

theorem tags_remove (r : Registry) (id : SessionId) :
    (r.remove id).2.tags = r.tags.filter (·.1 != id) := by
  simp [tags, remove, List.filter_map, Function.comp_def]

/-- A session that takes a name not in use leaves no two with one name. -/
theorem nodup_names_added {id : SessionId} (hnames : r.names.Nodup) (hunused : r.find? id = none)
    (n : Newcomer) (now : Instant) : (r.added id n now).names.Nodup := by
  rw [names_eq, tags_added, List.map_append, ← names_eq]
  refine List.nodup_append.mpr ⟨hnames, List.pairwise_singleton .., ?_⟩
  rintro a ha b hb rfl
  obtain rfl : a = id := by simpa using hb
  exact find?_eq_none.mp hunused ha

theorem nodup_names_filter {r' : Registry} {keep : SessionId × Option Nat → Bool}
    (hnames : r.names.Nodup) (htags : r'.tags = r.tags.filter keep) : r'.names.Nodup := by
  rw [names_eq, htags]
  exact (names_eq r ▸ hnames).sublist (List.filter_sublist.map _)

end Registry

/-! ## The ledger -/

/-- A registry and the reservations that are held. -/
structure Ledger where
  registry : Registry
  /-- The numbers of the reservations that have been neither committed nor given back. -/
  held : List Nat
  /-- How many reservations have been handed out. -/
  given : Nat

namespace Ledger

/-- What can be looked up in a registry. -/
inductive Query where
  | lookup (id : SessionId)
  | control (id : SessionId)
  | active
  | sessions
  | newest
  | latestRtt
  | maxClients

/-- What can be asked of a registry. Whoever creates or commits brings the names that the generator
draws. -/
inductive Act where
  | reserve
  | commit (ticket : Nat) (ids : List SessionId) (n : Newcomer) (now : Instant)
  /-- A reservation is given back. -/
  | drop (ticket : Nat)
  | create (ids : List SessionId) (n : Newcomer) (now : Instant)
  | remove (id : SessionId)
  | update (s : Snapshot)
  | read (q : Query)

/-- What is answered. -/
inductive Answer where
  | handedOut (ticket : Nat)
  | registered (id : SessionId)
  | refused (why : Failure)
  | record (r : Option Record)
  | outlet (key : Option Nat)
  | number (n : Nat)
  | records (rs : List Record)
  | name (id : Option SessionId)
  | roundTrip (d : Option Duration)
  | nothing
  deriving DecidableEq

/-- What is found in a registry. -/
def look (r : Registry) : Query → Answer
  | .lookup id => .record (r.lookup id)
  | .control id => .outlet (r.control id)
  | .active => .number r.active
  | .sessions => .records r.sessions
  | .newest => .name r.newest
  | .latestRtt => .roundTrip r.latestRtt
  | .maxClients => .number r.maxClients

/-- Nothing is registered and nothing is held. -/
def new (maxClients : Nat) : Ledger := ⟨.new maxClients, [], 0⟩

/-- The answer, and the ledger afterwards. Nobody commits or gives back what he does not hold, and
nothing is registered as long as only names in use are drawn. -/
def act (l : Ledger) : Act → Answer × Ledger
  | .reserve =>
    match l.registry.reserve with
    | .ok registry => (.handedOut l.given, ⟨registry, l.held ++ [l.given], l.given + 1⟩)
    | .error why => (.refused why, l)
  | .commit ticket ids n now =>
    if ticket ∈ l.held then
      match l.registry.commit? ids n now with
      | some (id, registry) =>
        (.registered id, { l with registry, held := l.held.erase ticket })
      | none => (.nothing, l)
    else (.nothing, l)
  | .drop ticket =>
    if ticket ∈ l.held then
      (.nothing, { l with registry := l.registry.release, held := l.held.erase ticket })
    else (.nothing, l)
  | .create ids n now =>
    match l.registry.create? ids n now with
    | .ok (id, registry) => (.registered id, { l with registry })
    | .error why => (.refused why, l)
  | .remove id =>
    let (record, registry) := l.registry.remove id
    (.record record, { l with registry })
  | .update s => (.nothing, { l with registry := l.registry.update s })
  | .read q => (look l.registry q, l)

def perform (l : Ledger) (acts : List Act) : Ledger := acts.foldl (fun l a ↦ (l.act a).2) l

/-! ## The balance -/

/-- The registry counts exactly the reservations that are held, and together with the sessions they
are not too many. -/
structure Balanced (maxClients : Nat) (l : Ledger) : Prop where
  maxClients_eq : l.registry.maxClients = maxClients
  bounded : l.registry.active + l.registry.reserved ≤ maxClients
  reserved_eq : l.registry.reserved = l.held.length
  held : l.held.Nodup
  /-- The next number is a new one. -/
  given : ∀ t ∈ l.held, t < l.given
  names : l.registry.names.Nodup

variable {maxClients : Nat} {l : Ledger}

private theorem balanced_new (maxClients : Nat) : (new maxClients).Balanced maxClients :=
  ⟨rfl, Nat.zero_le _, rfl, List.nodup_nil, nofun, List.nodup_nil⟩

namespace Balanced

theorem held_pos {t : Nat} (h : l.Balanced maxClients) (ht : t ∈ l.held) :
    0 < l.registry.reserved := h.reserved_eq ▸ List.length_pos_of_mem ht

theorem held_erase {t : Nat} (h : l.Balanced maxClients) (ht : t ∈ l.held) :
    l.registry.reserved - 1 = (l.held.erase t).length := by
  rw [List.length_erase_of_mem ht, h.reserved_eq]

theorem reserve (h : l.Balanced maxClients) : (l.act .reserve).2.Balanced maxClients := by
  simp only [act]
  split
  · rename_i registry hreserve
    obtain ⟨hlt, rfl⟩ := Registry.reserve_eq_ok hreserve
    have hnew : l.given ∉ l.held := fun hmem ↦ Nat.lt_irrefl _ (h.given _ hmem)
    refine ⟨h.maxClients_eq, ?_, by simp [h.reserved_eq], ?_, ?_, h.names⟩
    · have hbound := h.maxClients_eq ▸ hlt
      simp only [Registry.occupied, Registry.active] at hbound ⊢
      omega
    · exact List.nodup_append.mpr ⟨h.held, List.pairwise_singleton .., fun a ha b hb hab ↦
        hnew (List.mem_singleton.mp hb ▸ hab ▸ ha)⟩
    · intro t ht
      rcases List.mem_append.mp ht with ht | ht
      · exact Nat.lt_succ_of_lt (h.given t ht)
      · exact List.mem_singleton.mp ht ▸ Nat.lt_succ_self _
  · exact h

theorem commit (h : l.Balanced maxClients) (ticket : Nat) (ids : List SessionId) (n : Newcomer)
    (now : Instant) : (l.act (.commit ticket ids n now)).2.Balanced maxClients := by
  simp only [act]
  split
  · rename_i hticket
    split
    · rename_i id registry hcommit
      obtain ⟨hunused, rfl⟩ := Registry.commit?_eq_some hcommit
      refine ⟨h.maxClients_eq, ?_, h.held_erase hticket, h.held.erase ticket,
        fun t ht ↦ h.given t (List.mem_of_mem_erase ht),
        Registry.nodup_names_added h.names hunused n now⟩
      -- The place that is given back is the one the new session takes.
      have hpos := h.held_pos hticket
      have hbound := h.bounded
      simp only [Registry.added, Registry.release, Registry.active, List.length_append,
        List.length_singleton] at hbound ⊢
      omega
    · exact h
  · exact h

theorem drop (h : l.Balanced maxClients) (ticket : Nat) :
    (l.act (.drop ticket)).2.Balanced maxClients := by
  simp only [act]
  split
  · rename_i hticket
    exact ⟨h.maxClients_eq, Nat.le_trans (Nat.add_le_add_left (Nat.sub_le _ 1) _) h.bounded,
      h.held_erase hticket, h.held.erase ticket,
      fun t ht ↦ h.given t (List.mem_of_mem_erase ht), h.names⟩
  · exact h

theorem create (h : l.Balanced maxClients) (ids : List SessionId) (n : Newcomer) (now : Instant) :
    (l.act (.create ids n now)).2.Balanced maxClients := by
  simp only [act]
  split
  · rename_i id registry hcreate
    obtain ⟨hlt, hunused, rfl⟩ := Registry.create?_eq_ok hcreate
    refine ⟨h.maxClients_eq, ?_, h.reserved_eq, h.held, h.given,
      Registry.nodup_names_added h.names hunused n now⟩
    have hbound := h.maxClients_eq ▸ hlt
    simp only [Registry.added, Registry.occupied, Registry.active, List.length_append,
      List.length_singleton] at hbound ⊢
    omega
  · exact h

theorem remove (h : l.Balanced maxClients) (id : SessionId) :
    (l.act (.remove id)).2.Balanced maxClients :=
  ⟨h.maxClients_eq, Nat.le_trans (Nat.add_le_add_right (List.length_filter_le ..) _) h.bounded,
    h.reserved_eq, h.held, h.given, Registry.nodup_names_filter h.names (Registry.tags_remove ..)⟩

theorem update (h : l.Balanced maxClients) (s : Snapshot) :
    (l.act (.update s)).2.Balanced maxClients := by
  refine ⟨h.maxClients_eq, ?_, h.reserved_eq, h.held, h.given, ?_⟩
  · have hactive : (l.registry.update s).active = l.registry.active := List.length_map _
    exact hactive.symm ▸ h.bounded
  · exact (Registry.names_update ..).symm ▸ h.names

theorem act (h : l.Balanced maxClients) (a : Act) : (l.act a).2.Balanced maxClients := by
  cases a with
  | reserve => exact h.reserve
  | commit ticket ids n now => exact h.commit ticket ids n now
  | drop ticket => exact h.drop ticket
  | create ids n now => exact h.create ids n now
  | remove id => exact h.remove id
  | update s => exact h.update s
  | read q => exact h

/-- **The books balance, whatever is asked in whatever order.** -/
theorem perform (h : l.Balanced maxClients) (acts : List Act) :
    (l.perform acts).Balanced maxClients := by
  induction acts generalizing l with
  | nil => exact h
  | cons a acts ih => exact ih (h.act a)

end Balanced

/-! ## What is granted -/

section Granted

variable (h : l.Balanced maxClients)

include h

private theorem act_reserve : l.act .reserve =
    if l.registry.active + l.held.length < maxClients then
      (.handedOut l.given, ⟨{ l.registry with reserved := l.registry.reserved + 1 },
        l.held ++ [l.given], l.given + 1⟩)
    else (.refused .capacityExceeded, l) := by
  rw [← h.maxClients_eq, ← h.reserved_eq]
  split
  · rename_i hroom
    simp only [act, Registry.reserve_of_lt hroom]
  · rename_i hfull
    simp only [act, Registry.reserve_of_le (Nat.not_lt.mp hfull)]

/-- What is held is counted, so that giving it back is never cut off at zero. -/
theorem release_reserved {t : Nat} (ht : t ∈ l.held) :
    l.registry.release.reserved + 1 = l.registry.reserved :=
  Nat.sub_add_cancel (h.held_pos ht)

private theorem act_create {names : Nat → SessionId} {j m : Nat} (n : Newcomer) (now : Instant)
    (hunused : l.registry.find? (names j) = none)
    (hfirst : ∀ i < j, l.registry.find? (names i) ≠ none) (hm : j < m) :
    l.act (.create ((List.range m).map names) n now) =
      if l.registry.active + l.held.length < maxClients then
        (.registered (names j), { l with registry := l.registry.added (names j) n now })
      else (.refused .capacityExceeded, l) := by
  rw [← h.maxClients_eq, ← h.reserved_eq]
  split
  · rename_i hroom
    simp only [act, Registry.create?_of_first hunused hfirst hm hroom]
  · rename_i hfull
    simp only [act, Registry.create?_of_le _ (Nat.not_lt.mp hfull)]

private theorem occupied_commit {t : Nat} (ht : t ∈ l.held) (id : SessionId) (n : Newcomer)
    (now : Instant) :
    (l.registry.release.added id n now).occupied = l.registry.occupied := by
  have hcount := release_reserved h ht
  simp only [Registry.occupied, Registry.added, Registry.release, List.length_append,
    List.length_singleton] at hcount ⊢
  omega

end Granted

private theorem act_commit {names : Nat → SessionId} {j m t : Nat} (n : Newcomer) (now : Instant)
    (ht : t ∈ l.held) (hunused : l.registry.find? (names j) = none)
    (hfirst : ∀ i < j, l.registry.find? (names i) ≠ none) (hm : j < m) :
    l.act (.commit t ((List.range m).map names) n now) =
      (.registered (names j),
        ⟨l.registry.release.added (names j) n now, l.held.erase t, l.given⟩) := by
  simp only [act, if_pos ht, Registry.commit?_of_first hunused hfirst hm]

private theorem act_drop {t : Nat} (ht : t ∈ l.held) :
    l.act (.drop t) = (.nothing, ⟨l.registry.release, l.held.erase t, l.given⟩) := if_pos ht

/-- Whatever was asked: a session that is registered has a name that was not in use, and comes
behind the others, which are left as they are. -/
theorem registered_unused {a : Act} {id : SessionId} (h : (l.act a).1 = .registered id) :
    l.registry.find? id = none ∧ ∃ e : Entry, e.record.session = id ∧
      (l.act a).2.registry.entries = l.registry.entries ++ [e] := by
  cases a with
  | commit ticket ids n now =>
    simp only [act] at h ⊢
    split at h
    · split at h
      · rename_i hticket _ _ _ hcommit
        obtain rfl := Answer.registered.inj h
        obtain ⟨hunused, rfl⟩ := Registry.commit?_eq_some hcommit
        rw [if_pos hticket]
        exact ⟨hunused, _, rfl, rfl⟩
      · cases h
    · cases h
  | create ids n now =>
    simp only [act] at h ⊢
    split at h
    · rename_i hcreate
      obtain rfl := Answer.registered.inj h
      obtain ⟨-, hunused, rfl⟩ := Registry.create?_eq_ok hcreate
      exact ⟨hunused, _, rfl, rfl⟩
    · cases h
  | reserve =>
    simp only [act] at h
    split at h <;> cases h
  | drop ticket =>
    simp only [act] at h
    split at h <;> cases h
  | remove id | update s => cases h
  | read q => cases q <;> cases h

/-- **No place is given twice, and none is lost.** After any acts in any order, sessions and
reservations are within the capacity, and the registry counts exactly the reservations that are
held. A reservation or a new session is granted when these leave a place, and refused, with nothing
changed, when they do not. A reservation that is held can be given back, and can be committed: with
any stream that at last brings a name not in use, the session gets the first such name, and the
total stays what it was. Whatever is registered leaves the sessions before it as they are. -/
theorem accounting (maxClients : Nat) (acts : List Act) :
    let l := (new maxClients).perform acts
    let r := l.registry
    (r.active + r.reserved ≤ maxClients ∧ r.reserved = l.held.length ∧ l.held.Nodup) ∧
    (l.act .reserve =
      if r.active + l.held.length < maxClients then
        (.handedOut l.given,
          ⟨{ r with reserved := r.reserved + 1 }, l.held ++ [l.given], l.given + 1⟩)
      else (.refused .capacityExceeded, l)) ∧
    (∀ t ∈ l.held, l.act (.drop t) = (.nothing, ⟨r.release, l.held.erase t, l.given⟩) ∧
      r.release.reserved + 1 = r.reserved) ∧
    (∀ names : Nat → SessionId, (∃ k, r.find? (names k) = none) →
      ∃ j, r.find? (names j) = none ∧ (∀ i < j, r.find? (names i) ≠ none) ∧
        ∀ m > j, ∀ (n : Newcomer) (now : Instant),
          let ids := (List.range m).map names
          let r' := r.release.added (names j) n now
          (l.act (.create ids n now) =
            if r.active + l.held.length < maxClients then
              (.registered (names j), { l with registry := r.added (names j) n now })
            else (.refused .capacityExceeded, l)) ∧
          ∀ t ∈ l.held,
            l.act (.commit t ids n now) = (.registered (names j), ⟨r', l.held.erase t, l.given⟩) ∧
            r'.reserved + 1 = r.reserved ∧ r'.active + r'.reserved = r.active + r.reserved) ∧
    ∀ (a : Act) (id : SessionId), (l.act a).1 = .registered id →
      r.find? id = none ∧ ∃ e : Entry, e.record.session = id ∧
        (l.act a).2.registry.entries = r.entries ++ [e] := by
  intro l r
  have hbalanced : l.Balanced maxClients := (balanced_new maxClients).perform acts
  refine ⟨⟨hbalanced.bounded, hbalanced.reserved_eq, hbalanced.held⟩, act_reserve hbalanced,
    fun t ht ↦ ⟨act_drop ht, release_reserved hbalanced ht⟩, ?_,
    fun a id h ↦ registered_unused h⟩
  intro names hnames
  obtain ⟨j, hunused, hfirst⟩ := Registry.exists_first hnames
  refine ⟨j, hunused, hfirst, fun m hm n now ↦ ⟨act_create hbalanced n now hunused hfirst hm, ?_⟩⟩
  intro t ht
  exact ⟨act_commit n now ht hunused hfirst hm, release_reserved hbalanced ht,
    occupied_commit hbalanced ht (names j) n now⟩

/-- A session and a reservation fill a registry for two, and the generator has got stuck at the name
that is in use. The reservation is committed under the first other name. -/
theorem accounting_repeated_name :
    let used : SessionId := ⟨⟨List.replicate 16 7, rfl⟩⟩
    let other : SessionId := ⟨⟨List.replicate 16 9, rfl⟩⟩
    let guest : Newcomer := ⟨⟨⟨List.replicate 16 8, rfl⟩, "laptop", 0⟩, ⟨1, 0⟩, none⟩
    let l := (new 2).perform [.create [used] guest 0, .reserve]
    (l.act .reserve).1 = .refused .capacityExceeded ∧
      (l.act (.commit 0 [used, used, used, other] guest 5)).1 = .registered other := by
  intro used other guest l
  obtain ⟨-, hreserve, -, hnames, -⟩ := accounting 2 [.create [used] guest 0, .reserve]
  obtain ⟨j, hunused, hfirst, hgranted⟩ :=
    hnames (fun k ↦ if k < 3 then used else other) ⟨3, by decide⟩
  -- The first three names are in use, and the fourth is not.
  have hle : j ≤ 3 := Nat.not_lt.mp fun hlt ↦ hfirst 3 hlt (by decide)
  have hge : 3 ≤ j := Nat.not_lt.mp fun hlt ↦ by
    rw [if_pos hlt] at hunused
    revert hunused
    decide
  obtain rfl : j = 3 := Nat.le_antisymm hle hge
  obtain ⟨-, hcommit⟩ := hgranted 4 (by decide) guest 5
  exact ⟨congrArg Prod.fst hreserve, congrArg Prod.fst (hcommit 0 (by decide)).1⟩

end Ledger

end DeskLink.Server
