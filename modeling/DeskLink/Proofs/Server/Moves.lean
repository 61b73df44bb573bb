import DeskLink.Server.Host
import DeskLink.Proofs.Server.Places
import DeskLink.Proofs.Session.Leaving

/-!
# What happens at a server

A server is a registry, connections and, for each connection, an outlet through which others reach
its session. `Act` lists everything that can happen there. A connection moves at whatever its end of
the stream then is, so a list of acts covers every behaviour of every peer and every order in which
the connections, the owner of the server and the producers of input come to act.

For the connection that makes it, a move is one of those in `Turns`; the other connections and their
outlets stay as they are, and the registry is changed as `Shifts` says. What others do to an outlet
is in `Reached`: they leave commands and events, and close nothing. `Sound` is what these three
keep.
-/

namespace DeskLink.Server

open Handshake (Conduct)
open Session (Worker Outlet Mailbox Ending)

/-! ## Acts -/

/-- What can happen at a server. -/
inductive Act where
  | accept (now : Instant)
  /-- The connection with this index makes a move, at this end of its stream. -/
  | move (i : Nat) (now : Instant) (e : Endpoint)
  | close (id : SessionId) (reason : CloseReason)
  | shutdown
  | focus (id : Option SessionId)
  /-- A producer offers an event to the queue with this key. -/
  | hand (key : Nat) (id : SessionId) (e : Event)

namespace Host

/-- The server after an act. One that is refused or cannot happen changes nothing. -/
def act (h : Host) : Act → Host
  | .accept now => h.accept now
  | .move i now e => ((h.step i now e).map (·.1)).getD h
  | .close id reason =>
    match h.close id reason with
    | .ok h => h
    | .error _ => h
  | .shutdown => h.shutdown
  | .focus id =>
    match h.focus id with
    | .ok h => h
    | .error _ => h
  | .hand key id e => { h with outlets := (handTo h.outlets key id e).2 }

def perform (h : Host) (acts : List Act) : Host := acts.foldl act h

@[simp] theorem perform_nil (h : Host) : h.perform [] = h := rfl

@[simp] theorem perform_cons (h : Host) (a : Act) (acts : List Act) :
    h.perform (a :: acts) = (h.act a).perform acts := rfl

theorem perform_append (h : Host) (before after : List Act) :
    h.perform (before ++ after) = (h.perform before).perform after := List.foldl_append

end Host

/-! ## A connection and its outlet -/

namespace Connection

@[simp] theorem stage_counted (c : Connection) : c.counted.stage = c.stage := by
  unfold counted
  split <;> rfl

@[simp] theorem outlet_counted (c : Connection) : c.counted.outlet = c.outlet := by
  unfold counted
  split <;> rfl

/-- The session has left its loop, or there is none any more. -/
def Left (c : Connection) : Prop :=
  match c.stage with
  | .negotiating _ => False
  | .running w => w.leave ≠ 0
  | .ended _ => True

/-- What a move can be for a connection and its outlet. -/
inductive Turns (c : Connection) (out : Outlet) : Connection → Outlet → Prop where
  | negotiates {conduct conduct' : Conduct} {c' : Connection}
      (hstage : c.stage = .negotiating conduct) (hstage' : c'.stage = .negotiating conduct') :
      Turns c out c' out
  /-- The session begins. -/
  | begins {conduct : Conduct} {w : Worker} {c' : Connection}
      (hstage : c.stage = .negotiating conduct) (hstage' : c'.stage = .running w)
      (hleave : w.leave = 0) : Turns c out c' out
  /-- The handshake failed, and nobody will take commands. -/
  | abandons {conduct : Conduct} {e : Ending} {c' : Connection}
      (hstage : c.stage = .negotiating conduct) (hstage' : c'.stage = .ended e) :
      Turns c out c' { out with commands := { out.commands with closed := true } }
  | runs {w w' : Worker} {effect : Session.Effect} {c' : Connection} (abandoned : Bool)
      (hstage : c.stage = .running w) (hleads : effect.Leads w.leave w'.leave)
      (hstage' : c'.stage = .running w') :
      Turns c out c'
        (effect.applyOutlet { out with commands := { out.commands with abandoned } })
  | retires {w : Worker} {e : Ending} {c' : Connection} (hstage : c.stage = .running w)
      (hleave : w.leave = 3) (hstage' : c'.stage = .ended e) : Turns c out c' out

/-- What is true of a connection and its outlet at any time. -/
structure Fits (c : Connection) (out : Outlet) : Prop where
  room : 0 < out.commands.capacity
  /-- The mailbox is closed when the connection is over. -/
  closed : out.commands.closed = true → c.Left
  /-- A session closes its queue as it leaves, and nothing else does. -/
  queue : match c.stage with
    | .negotiating _ => out.queue.closed = false
    | .running w => out.queue.closed = true ↔ 2 ≤ w.leave
    | .ended _ => True

variable {c c' : Connection} {out out' : Outlet}

theorem Turns.counted (h : c.Turns out c' out') : c.Turns out c'.counted out' := by
  cases h with
  | negotiates hstage hstage' => exact .negotiates hstage ((stage_counted c').trans hstage')
  | begins hstage hstage' hleave => exact .begins hstage ((stage_counted c').trans hstage') hleave
  | abandons hstage hstage' => exact .abandons hstage ((stage_counted c').trans hstage')
  | runs abandoned hstage hleads hstage' =>
    exact .runs abandoned hstage hleads ((stage_counted c').trans hstage')
  | retires hstage hleave hstage' => exact .retires hstage hleave ((stage_counted c').trans hstage')

theorem Left.turns (h : c.Left) (hturns : c.Turns out c' out') : c'.Left := by
  unfold Left at h ⊢
  cases hturns with
  | negotiates hstage _ | begins hstage _ _ => simp [hstage] at h
  | abandons _ hstage' | retires _ _ hstage' => simp [hstage']
  | @runs _ _ effect _ _ hstage hleads hstage' =>
    simp only [hstage, hstage'] at h ⊢
    cases effect <;> simp only [Session.Effect.Leads] at hleads <;> omega

theorem Fits.turns (h : c.Fits out) (hturns : c.Turns out c' out') : c'.Fits out' := by
  obtain ⟨hroom, hclosed, hqueue⟩ := h
  have hleft := fun h ↦ (hclosed h).turns hturns
  cases hturns with
  | negotiates hstage hstage' =>
    simp only [hstage] at hqueue
    exact ⟨hroom, hleft, by simp only [hstage', hqueue]⟩
  | begins hstage hstage' hleave =>
    simp only [hstage] at hqueue
    exact ⟨hroom, hleft, by simp [hstage', hqueue, hleave]⟩
  | abandons _ hstage' => exact ⟨hroom, fun _ ↦ by simp [Left, hstage'], by simp [hstage']⟩
  | retires _ _ hstage' => exact ⟨hroom, hleft, by simp [hstage']⟩
  | @runs w w' effect _ abandoned hstage hleads hstage' =>
    simp only [hstage] at hqueue
    cases effect with
    | shut =>
      obtain ⟨hbefore, hafter⟩ := hleads
      refine ⟨hroom, fun _ ↦ by simp [Left, hstage', hafter], ?_⟩
      simpa [hstage', Session.Effect.applyOutlet, hbefore, hafter] using hqueue
    | closedQueue =>
      refine ⟨hroom, hleft, ?_⟩
      simp [hstage', Session.Effect.applyOutlet, Queue.close, hleads.2]
    | command =>
      refine ⟨hroom, hleft, ?_⟩
      simpa [hstage', Session.Effect.applyOutlet, hleads.1, hleads.2] using hqueue
    | _ =>
      refine ⟨hroom, hleft, ?_⟩
      simp only [hstage', Session.Effect.applyOutlet, hqueue]
      simp only [Session.Effect.Leads] at hleads
      omega

end Connection

/-! ## What others do to an outlet -/

/-- Others have left commands and events at an outlet, in any order. -/
inductive Reached (out : Outlet) : Outlet → Prop where
  | refl : Reached out out
  | posted {out' : Outlet} (reason : CloseReason) (h : Reached out out') :
      Reached out { out' with commands := (out'.commands.post reason).2 }
  | handed {out' : Outlet} (id : SessionId) (e : Event) (h : Reached out out') :
      Reached out (out'.hand id e).2

namespace Reached

variable {out out' : Outlet}

theorem trans {out'' : Outlet} (h : Reached out out') (h' : Reached out' out'') :
    Reached out out'' := by
  induction h' with
  | refl => exact h
  | posted reason _ ih => exact .posted reason ih
  | handed id e _ ih => exact .handed id e ih

/-- The mailbox has the same room, is as open as before, and still has its commands. -/
theorem commands (h : Reached out out') :
    out'.commands.capacity = out.commands.capacity ∧
      out'.commands.closed = out.commands.closed ∧
      out.commands.waiting <+: out'.commands.waiting := by
  induction h with
  | refl => exact ⟨rfl, rfl, List.prefix_refl _⟩
  | @posted out' reason _ ih =>
    rcases out'.commands.post_cases reason with ⟨-, hsame⟩ | happended
    · rwa [hsame]
    · rw [happended]
      exact ⟨ih.1, ih.2.1, ih.2.2.trans (List.prefix_append _ _)⟩
  | handed id e _ ih => rwa [Outlet.commands_hand]

theorem queue_closed (h : Reached out out') : out'.queue.closed = out.queue.closed := by
  induction h with
  | refl => rfl
  | posted _ _ ih => exact ih
  | handed id e _ ih => rwa [Outlet.closed_hand]

end Reached

theorem Connection.Fits.reached {c : Connection} {out out' : Outlet} (h : c.Fits out)
    (hreached : Reached out out') : c.Fits out' where
  room := hreached.commands.1 ▸ h.room
  closed := hreached.commands.2.1 ▸ h.closed
  queue := hreached.queue_closed ▸ h.queue

/-- Others have been at the outlets, and only there. -/
structure Host.Reaches (h h' : Host) : Prop where
  connections_eq : h'.connections = h.connections
  registry_eq : h'.registry = h.registry
  length_eq : h'.outlets.length = h.outlets.length
  outlet : ∀ (k : Nat) (out' : Outlet), h'.outlets[k]? = some out' →
    ∃ out, h.outlets[k]? = some out ∧ Reached out out'

namespace Host

variable {h h' : Host}

theorem Reaches.refl (h : Host) : h.Reaches h :=
  ⟨rfl, rfl, rfl, fun _ out hout ↦ ⟨out, hout, .refl⟩⟩

theorem Reaches.trans {h'' : Host} (hreaches : h.Reaches h') (hreaches' : h'.Reaches h'') :
    h.Reaches h'' where
  connections_eq := hreaches'.connections_eq.trans hreaches.connections_eq
  registry_eq := hreaches'.registry_eq.trans hreaches.registry_eq
  length_eq := hreaches'.length_eq.trans hreaches.length_eq
  outlet k out'' hout'' := by
    obtain ⟨out', hout', hreached'⟩ := hreaches'.outlet k out'' hout''
    obtain ⟨out, hout, hreached⟩ := hreaches.outlet k out' hout'
    exact ⟨out, hout, hreached.trans hreached'⟩

theorem reaches_set {key : Nat} {out out' : Outlet} (hout : h.outlets[key]? = some out)
    (hreached : Reached out out') :
    h.Reaches { h with outlets := setOutlet h.outlets key out' } where
  connections_eq := rfl
  registry_eq := rfl
  length_eq := List.length_set
  outlet k other hother := by
    rw [setOutlet, List.getElem?_set] at hother
    split at hother
    · rename_i hkey
      subst hkey
      split at hother
      · exact ⟨out, hout, Option.some.inj hother ▸ hreached⟩
      · nomatch hother
    · exact ⟨other, hother, .refl⟩

/-- Asking a session to close leaves a command in its mailbox, if it can be reached. -/
theorem act_close {id : SessionId} {reason : CloseReason} {key : Nat} {out : Outlet}
    (hcontrol : h.registry.control id = some key) (hout : h.outlets[key]? = some out) :
    h.act (.close id reason) =
      let commands := (out.commands.post reason).2
      { h with outlets := setOutlet h.outlets key { out with commands } } := by
  have hsame := setOutlet_self hout
  simp only [act, close, hcontrol, hout, Option.bind_some, Option.map_some]
  -- When the mailbox is closed the request is refused, and then nothing was left in it either.
  by_cases hclosed : out.commands.closed = true
  · simp only [Mailbox.post, hclosed, if_true, hsame]
  by_cases hfull : out.commands.capacity ≤ out.commands.waiting.length
  · simp only [Mailbox.post, hclosed, hfull, if_true, if_false, Bool.false_eq_true]
  · simp only [Mailbox.post, hclosed, hfull, if_false, Bool.false_eq_true]

theorem reaches_act_close (id : SessionId) (reason : CloseReason) :
    h.Reaches (h.act (.close id reason)) := by
  cases hfind : (h.registry.control id).bind fun key ↦ (h.outlets[key]?).map (key, ·) with
  | none =>
    simp only [act, close, hfind]
    exact .refl h
  | some found =>
    obtain ⟨key, hcontrol, hkey⟩ := Option.bind_eq_some_iff.mp hfind
    obtain ⟨out, hout, -⟩ := Option.map_eq_some_iff.mp hkey
    rw [act_close hcontrol hout]
    exact reaches_set hout (.posted reason .refl)

/-- A shutdown asks one registered session after the other to close. -/
theorem act_shutdown : h.act .shutdown = { h with stopped := true }.perform
    (h.registry.sessions.map fun r : Record ↦ .close r.session .serverShutdown) := by
  rw [perform, List.foldl_map]
  rfl

end Host

/-! ## The registry -/

namespace Registry

variable {r r' : Registry}

/-- What a move of the connection with this key can do to the sessions in the registry. -/
inductive Shifts (r : Registry) (key : Nat) (r' : Registry) : Prop where
  | keeps (hentries : r'.entries = r.entries)
  | adds {id : SessionId} {peer : Identity} {version : Version} {now : Instant}
      (hunused : r.find? id = none)
      (hentries : r'.entries = r.entries ++ [⟨.start id peer version now, some key⟩])
  | drops {id : SessionId} (hentries : r'.entries = r.entries.filter (·.record.session != id))
  | updates {s : Snapshot} (hentries : r'.entries = (r.update s).entries)

theorem entries_of_reserve (h : r.reserve = .ok r') : r'.entries = r.entries :=
  (reserve_eq_ok h).2 ▸ rfl

private theorem shifts_of_commit? {ids : List SessionId} {peer : Identity} {version : Version}
    {key : Nat} {now : Instant} {id : SessionId}
    (h : r.commit? ids ⟨peer, version, some key⟩ now = some (id, r')) : r.Shifts key r' := by
  obtain ⟨hunused, rfl⟩ := commit?_eq_some h
  exact .adds hunused rfl

/-- No two sessions have one name, and each can be reached at one of the outlets. -/
structure Sound (r : Registry) (outlets : Nat) : Prop where
  names : (r.entries.map (·.record.session)).Nodup
  reach : ∀ e ∈ r.entries, ∃ key < outlets, e.control = some key

theorem Sound.shifts {n key : Nat} (h : r.Sound n) (hkey : key < n) (hshifts : r.Shifts key r') :
    r'.Sound n := by
  obtain ⟨hnames, hreach⟩ := h
  cases hshifts with
  | keeps hentries => exact ⟨hentries ▸ hnames, hentries ▸ hreach⟩
  | @adds id peer version now hunused hentries =>
    constructor
    · rw [hentries]
      exact nodup_names_added hnames hunused ⟨peer, version, some key⟩ now
    · intro e he
      rcases List.mem_append.mp (hentries ▸ he) with he | he
      · exact hreach e he
      · exact ⟨key, hkey, by simp_all⟩
  | drops hentries =>
    constructor
    · exact hentries ▸ hnames.sublist (List.filter_sublist.map _)
    · exact fun e he ↦ hreach e (List.mem_filter.mp (hentries ▸ he)).1
  | @updates s hentries =>
    constructor
    · rw [hentries, ← Registry.names, names_update]
      exact hnames
    · intro e he
      rw [hentries, update] at he
      obtain ⟨e', he', rfl⟩ := List.mem_map.mp he
      obtain ⟨key, hkey, hcontrol⟩ := hreach e' he'
      exact ⟨key, hkey, by split <;> exact hcontrol⟩

private theorem find?_of_mem {entries : List Entry}
    (hnames : (entries.map (·.record.session)).Nodup) {e : Entry} (he : e ∈ entries) :
    entries.find? (·.record.session == e.record.session) = some e := by
  induction entries with
  | nil => nomatch he
  | cons first rest ih =>
    obtain ⟨hfirst, hrest⟩ := List.nodup_cons.mp hnames
    rcases List.mem_cons.mp he with rfl | he
    · simp
    · have hne : first.record.session ≠ e.record.session :=
        fun heq ↦ hfirst (List.mem_map.mpr ⟨e, he, heq.symm⟩)
      rw [List.find?_cons_of_neg (by simpa using hne)]
      exact ih hrest he

theorem Sound.control_eq {n : Nat} (h : r.Sound n) {e : Entry} (he : e ∈ r.entries) :
    r.control e.record.session = e.control := by
  rw [control, find?, find?_of_mem h.names he, Option.bind_some]

end Registry

/-! ## A move -/

namespace Host

@[simp] theorem connections_removeSession (h : Host) (id : SessionId) :
    (h.removeSession id).connections = h.connections := by
  unfold removeSession
  split <;> rfl

@[simp] theorem outlets_removeSession (h : Host) (id : SessionId) :
    (h.removeSession id).outlets = h.outlets := by
  unfold removeSession
  split <;> rfl

@[simp] theorem entries_removeSession (h : Host) (id : SessionId) :
    (h.removeSession id).registry.entries
      = h.registry.entries.filter (·.record.session != id) := by
  unfold removeSession Registry.remove
  cases h.registry.lookup id <;> rfl

@[simp] theorem connections_note (h : Host) (effect : Session.Effect) :
    (h.note effect).connections = h.connections := by
  unfold note
  split
  · split <;> rfl
  · rfl
  · rfl

@[simp] theorem outlets_note (h : Host) (effect : Session.Effect) :
    (h.note effect).outlets = h.outlets := by
  unfold note
  split
  · split <;> rfl
  · rfl
  · rfl

private theorem shifts_note (h : Host) (outlets : List Outlet) (effect : Session.Effect)
    (key : Nat) :
    h.registry.Shifts key ({ h with outlets }.note effect).registry := by
  unfold note
  split
  · split <;> exact .keeps rfl
  · exact .updates rfl
  · exact .keeps rfl

/-- What a handshake does at the server, apart from going on. -/
structure Serves (h : Host) (c : Connection) (h' : Host) (c' : Connection) : Prop where
  connections_eq : h'.connections = h.connections
  outlets_eq : h'.outlets = h.outlets
  outlet_eq : c'.outlet = c.outlet
  shifts : h.registry.Shifts c.outlet h'.registry

theorem serves_afterEffect (h : Host) (c : Connection) (now : Instant)
    (effect : Handshake.Effect) :
    h.Serves c (h.afterEffect c now effect).1 (h.afterEffect c now effect).2 := by
  have hsame : h.Serves c h c := ⟨rfl, rfl, rfl, .keeps rfl⟩
  unfold afterEffect
  split
  · split
    · exact ⟨rfl, rfl, rfl, .keeps (Registry.entries_of_reserve ‹_›)⟩
    · exact hsame
  · split
    · split
      · exact ⟨rfl, rfl, rfl, Registry.shifts_of_commit? ‹_›⟩
      · exact hsame
    · exact hsame
  · exact hsame

/-- What is true of a server at any time. -/
structure Sound (h : Host) : Prop where
  length_eq : h.outlets.length = h.connections.length
  /-- A connection has the outlet with its own index. -/
  own : ∀ (i : Nat) (c : Connection), h.connections[i]? = some c → c.outlet = i
  fits : ∀ (i : Nat) (c : Connection) (out : Outlet),
    h.connections[i]? = some c → h.outlets[i]? = some out → c.Fits out
  registry : h.registry.Sound h.outlets.length

/-- The connection with this index has made a move. -/
structure Moves (h : Host) (i : Nat) (h' : Host) (c c' : Connection) (out out' : Outlet) :
    Prop where
  connection : h.connections[i]? = some c
  outlet : h.outlets[i]? = some out
  turns : c.Turns out c' out'
  outlet_eq : c'.outlet = i
  connections_eq : h'.connections = h.connections.set i c'
  outlets_eq : h'.outlets = h.outlets.set i out'
  shifts : h.registry.Shifts i h'.registry

theorem Sound.exists_outlet {h : Host} (hsound : h.Sound) {i : Nat} {c : Connection}
    (hc : h.connections[i]? = some c) : ∃ out, h.outlets[i]? = some out := by
  obtain ⟨hlt, -⟩ := List.getElem?_eq_some_iff.mp hc
  exact ⟨_, List.getElem?_eq_getElem (hsound.length_eq ▸ hlt)⟩

variable {h h' : Host} {i : Nat} {c : Connection} {now : Instant} {e e' : Endpoint}

theorem moves_setConnection {h₁ : Host} {c₁ : Connection} {out out' : Outlet}
    (hc : h.connections[i]? = some c) (hout : h.outlets[i]? = some out)
    (hturns : c.Turns out c₁ out') (houtlet : c₁.outlet = i)
    (hconnections : h₁.connections = h.connections) (houtlets : h₁.outlets = h.outlets.set i out')
    (hshifts : h.registry.Shifts i h₁.registry) :
    h.Moves i (h₁.setConnection i c₁) c c₁.counted out out' :=
  ⟨hc, hout, hturns.counted, (Connection.outlet_counted c₁).trans houtlet,
    by rw [setConnection, hconnections], houtlets, hshifts⟩

/-- The registry first loses the session, if one was registered, and then a place. -/
theorem exists_abandon (h : Host) (i : Nat) (c : Connection) (why : Failure) :
    ∃ h₁ : Host, h₁.connections = h.connections ∧ h₁.outlets = h.outlets ∧
      h.registry.Shifts c.outlet h₁.registry ∧ h.abandon i c why
        = (h₁.closeMailbox c.outlet).setConnection i
          { c with stage := .ended (.error why), reserved := false } := by
  cases hregistered : c.registered with
  | none =>
    cases hreserved : c.reserved with
    | false => exact ⟨h, rfl, rfl, .keeps rfl, by simp [abandon, hregistered, hreserved]⟩
    | true =>
      exact ⟨{ h with registry := h.registry.release }, rfl, rfl, .keeps rfl,
        by simp [abandon, hregistered, hreserved]⟩
  | some id =>
    cases hreserved : c.reserved with
    | false =>
      exact ⟨h.removeSession id, connections_removeSession .., outlets_removeSession ..,
        .drops (entries_removeSession ..), by simp [abandon, hregistered, hreserved]⟩
    | true =>
      exact ⟨{ h.removeSession id with registry := (h.removeSession id).registry.release },
        connections_removeSession .., outlets_removeSession .., .drops (entries_removeSession ..),
        by simp [abandon, hregistered, hreserved]⟩

private theorem closeMailbox_eq {out : Outlet} (hout : h.outlets[i]? = some out) :
    h.closeMailbox i =
      let commands := { out.commands with closed := true }
      { h with outlets := h.outlets.set i { out with commands } } := by
  simp only [closeMailbox, hout, setOutlet]

private theorem moves_negotiate {conduct : Conduct} {out : Outlet} (hc : h.connections[i]? = some c)
    (hown : c.outlet = i) (hout : h.outlets[i]? = some out)
    (hstage : c.stage = .negotiating conduct)
    (hstep : h.negotiate i c conduct now e = some (h', e')) :
    ∃ c' out', h.Moves i h' c c' out out' := by
  have hkeep := (setOutlet_self hout).symm
  unfold negotiate at hstep
  split at hstep
  · obtain ⟨rfl, -⟩ := Prod.mk.inj (Option.some.inj hstep)
    obtain ⟨h₁, hconnections, houtlets, hshifts, heq⟩ := h.exists_abandon i c.counted _
    rw [Connection.outlet_counted, hown] at hshifts heq
    rw [heq, closeMailbox_eq (houtlets ▸ hout)]
    exact ⟨_, _, moves_setConnection hc hout (.abandons hstage rfl) rfl hconnections
      (by rw [houtlets]) hshifts⟩
  · obtain ⟨rfl, -⟩ := Prod.mk.inj (Option.some.inj hstep)
    exact ⟨_, out,
      moves_setConnection hc hout (.begins hstage rfl rfl) hown rfl hkeep (.keeps rfl)⟩
  · obtain ⟨⟨conduct', effect, e₁⟩, -, heq⟩ := Option.map_eq_some_iff.mp hstep
    obtain ⟨rfl, -⟩ := Prod.mk.inj heq
    obtain ⟨hconnections, houtlets, houtlet, hshifts⟩ := h.serves_afterEffect c now effect
    exact ⟨_, out, moves_setConnection hc hout (.negotiates hstage rfl) (houtlet.trans hown)
      hconnections (houtlets.trans hkeep) (hown ▸ hshifts)⟩

private theorem moves_run {w : Worker} {out : Outlet} (hc : h.connections[i]? = some c)
    (hown : c.outlet = i) (hout : h.outlets[i]? = some out) (hstage : c.stage = .running w)
    (hstep : h.run i c w now e = some (h', e')) : ∃ c' out', h.Moves i h' c c' out out' := by
  unfold run at hstep
  split at hstep
  · rename_i ending hresult
    have hleave := Worker.leave_of_result? hresult
    obtain ⟨rfl, -⟩ := Prod.mk.inj (Option.some.inj hstep)
    exact ⟨_, out, moves_setConnection hc hout (.retires hstage hleave rfl)
      ((Connection.outlet_counted c).trans hown) (connections_removeSession ..)
      ((outlets_removeSession ..).trans (setOutlet_self hout).symm)
      (.drops (entries_removeSession ..))⟩
  split at hstep
  · nomatch hstep
  · rename_i hreach
    obtain ⟨out₂, hout₂, rfl⟩ := Option.map_eq_some_iff.mp hreach
    obtain rfl := Option.some.inj (hout₂.symm.trans (hown ▸ hout))
    obtain ⟨⟨w', effect, out', e₁⟩, hmove, heq⟩ := Option.map_eq_some_iff.mp hstep
    obtain ⟨rfl, -⟩ := Prod.mk.inj heq
    obtain ⟨⟨w₁, effect₁⟩, hw, heq⟩ := Option.map_eq_some_iff.mp hmove
    obtain ⟨rfl, rfl, rfl, -⟩ : w₁ = w' ∧ effect₁ = effect ∧ _ = out' ∧ _ = e₁ := by
      simpa using heq
    exact ⟨_, _, moves_setConnection hc hout
      (.runs _ hstage (Worker.leads_of_does (Worker.does_step hw)) rfl) hown
      (connections_note ..) ((outlets_note ..).trans (by rw [setOutlet, hown]))
      (shifts_note ..)⟩

/-- **A move concerns the connection that makes it.** -/
theorem moves_of_step (hsound : h.Sound) (hstep : h.step i now e = some (h', e')) :
    ∃ c c' out out', h.Moves i h' c c' out out' := by
  unfold step at hstep
  split at hstep
  · nomatch hstep
  rename_i c hc
  have hown := hsound.own i c hc
  obtain ⟨out, hout⟩ := hsound.exists_outlet hc
  split at hstep
  · obtain ⟨c', out', hmoves⟩ := moves_negotiate hc hown hout ‹_› hstep
    exact ⟨c, c', out, out', hmoves⟩
  · obtain ⟨c', out', hmoves⟩ := moves_run hc hown hout ‹_› hstep
    exact ⟨c, c', out, out', hmoves⟩
  · nomatch hstep

/-! ## Any act -/

section Moves

variable {c' : Connection} {out out' : Outlet}

theorem Moves.connection' (hmoves : h.Moves i h' c c' out out') :
    h'.connections[i]? = some c' := by
  obtain ⟨hlt, -⟩ := List.getElem?_eq_some_iff.mp hmoves.connection
  rw [hmoves.connections_eq, List.getElem?_set_self hlt]

theorem Moves.outlet' (hmoves : h.Moves i h' c c' out out') : h'.outlets[i]? = some out' := by
  obtain ⟨hlt, -⟩ := List.getElem?_eq_some_iff.mp hmoves.outlet
  rw [hmoves.outlets_eq, List.getElem?_set_self hlt]

theorem Moves.eq_of_self {d : Connection} (hmoves : h.Moves i h' c c' out out')
    (hd : h'.connections[i]? = some d) : d = c' :=
  Option.some.inj (hd.symm.trans hmoves.connection')

theorem Moves.outlet_eq_of_self {other : Outlet} (hmoves : h.Moves i h' c c' out out')
    (hother : h'.outlets[i]? = some other) : other = out' :=
  Option.some.inj (hother.symm.trans hmoves.outlet')

theorem Sound.moves (hsound : h.Sound) (hmoves : h.Moves i h' c c' out out') : h'.Sound where
  length_eq := by
    rw [hmoves.outlets_eq, hmoves.connections_eq, List.length_set, List.length_set,
      hsound.length_eq]
  own j d hd := by
    rcases Decidable.em (i = j) with rfl | hne
    · exact hmoves.eq_of_self hd ▸ hmoves.outlet_eq
    · rw [hmoves.connections_eq, List.getElem?_set_ne hne] at hd
      exact hsound.own j d hd
  fits j d other hd hother := by
    rcases Decidable.em (i = j) with rfl | hne
    · rw [hmoves.eq_of_self hd, hmoves.outlet_eq_of_self hother]
      exact (hsound.fits i c out hmoves.connection hmoves.outlet).turns hmoves.turns
    · rw [hmoves.connections_eq, List.getElem?_set_ne hne] at hd
      rw [hmoves.outlets_eq, List.getElem?_set_ne hne] at hother
      exact hsound.fits j d other hd hother
  registry := by
    rw [hmoves.outlets_eq, List.length_set]
    obtain ⟨hlt, -⟩ := List.getElem?_eq_some_iff.mp hmoves.outlet
    exact hsound.registry.shifts hlt hmoves.shifts

end Moves

theorem Sound.reaches (hsound : h.Sound) (hreaches : h.Reaches h') : h'.Sound where
  length_eq := by rw [hreaches.length_eq, hreaches.connections_eq, hsound.length_eq]
  own := hreaches.connections_eq ▸ hsound.own
  fits j d other hd hother := by
    obtain ⟨out, hout, hreached⟩ := hreaches.outlet j other hother
    exact (hsound.fits j d out (hreaches.connections_eq ▸ hd) hout).reached hreached
  registry := by
    rw [hreaches.registry_eq, hreaches.length_eq]
    exact hsound.registry

theorem getElem?_concat {α : Type} {l : List α} {x y : α} {j : Nat}
    (h : (l ++ [x])[j]? = some y) : l[j]? = some y ∨ j = l.length ∧ y = x := by
  rw [List.getElem?_append] at h
  split at h
  · exact .inl h
  · rename_i hle
    obtain ⟨hlt, hget⟩ := List.getElem?_eq_some_iff.mp h
    rw [List.length_singleton] at hlt
    have hzero : j - l.length = 0 := by omega
    refine .inr ⟨by omega, ?_⟩
    simpa [hzero] using hget.symm

theorem Sound.accept (hsound : h.Sound) (now : Instant) : (h.accept now).Sound where
  length_eq := by simp [Host.accept, hsound.length_eq]
  own j d hd := by
    rcases getElem?_concat hd with hd | ⟨rfl, rfl⟩
    · exact hsound.own j d hd
    · exact hsound.length_eq
  fits j d other hd hother := by
    rcases getElem?_concat hd with hold | ⟨rfl, rfl⟩
    · rcases getElem?_concat hother with hout | ⟨rfl, -⟩
      · exact hsound.fits j d other hold hout
      · obtain ⟨hlt, -⟩ := List.getElem?_eq_some_iff.mp hold
        exact absurd hsound.length_eq (Nat.ne_of_lt hlt)
    · rcases getElem?_concat hother with hout | ⟨-, rfl⟩
      · obtain ⟨hlt, -⟩ := List.getElem?_eq_some_iff.mp hout
        exact absurd hsound.length_eq (Nat.ne_of_gt hlt)
      · exact ⟨by simp [Outlet.new, Mailbox.new, Mailbox.standardCapacity],
          by simp [Outlet.new, Mailbox.new], rfl⟩
  registry := by
    refine ⟨hsound.registry.names, fun entry hentry ↦ ?_⟩
    obtain ⟨key, hkey, hcontrol⟩ := hsound.registry.reach entry hentry
    refine ⟨key, ?_, hcontrol⟩
    simp only [Host.accept, List.length_append]
    omega

theorem reaches_hand (key : Nat) (id : SessionId) (e : Event) :
    h.Reaches (h.act (.hand key id e)) := by
  cases hout : h.outlets[key]? with
  | none =>
    simp only [act, handTo, hout]
    exact .refl h
  | some out =>
    simp only [act, handTo, hout]
    exact reaches_set hout (.handed id e .refl)

theorem reaches_focus (id : Option SessionId) : h.Reaches (h.act (.focus id)) := by
  simp only [act]
  split
  · rename_i hfocus
    obtain ⟨pin, -, rfl⟩ := map_eq_ok.mp hfocus
    exact ⟨rfl, rfl, rfl, (Reaches.refl h).outlet⟩
  · exact .refl h

/-- Asking sessions to close reaches their outlets, and nothing more. -/
theorem reaches_closes (reason : CloseReason) (records : List Record) :
    h.Reaches (h.perform (records.map fun r ↦ .close r.session reason)) := by
  induction records generalizing h with
  | nil => exact .refl h
  | cons r records ih =>
    rw [List.map_cons, perform_cons]
    exact (reaches_act_close r.session reason).trans ih

theorem reaches_shutdown (h : Host) : h.Reaches (h.act .shutdown) := by
  have hstopped : h.Reaches { h with stopped := true } :=
    ⟨rfl, rfl, rfl, (Reaches.refl h).outlet⟩
  rw [act_shutdown]
  exact hstopped.trans (reaches_closes ..)

/-- Whatever happens at a server, it accepts a connection, one of them makes a move, or others
reach its outlets. -/
theorem act_cases (hsound : h.Sound) (a : Act) :
    (∃ now, a = .accept now ∧ h.act a = h.accept now) ∨
    (∃ i c c' out out', h.Moves i (h.act a) c c' out out') ∨ h.Reaches (h.act a) := by
  cases a with
  | accept now => exact .inl ⟨now, rfl, rfl⟩
  | move i now e =>
    right
    cases hstep : h.step i now e with
    | none =>
      right
      simp only [act, hstep]
      exact .refl h
    | some moved =>
      left
      simp only [act, hstep]
      exact ⟨i, moves_of_step hsound hstep⟩
  | close id reason => exact .inr (.inr (reaches_act_close id reason))
  | shutdown => exact .inr (.inr (reaches_shutdown h))
  | focus id => exact .inr (.inr (reaches_focus id))
  | hand key id e => exact .inr (.inr (reaches_hand key id e))

theorem Sound.act (hsound : h.Sound) (a : Act) : (h.act a).Sound := by
  rcases act_cases hsound a with ⟨now, -, heq⟩ | ⟨i, c, c', out, out', hmoves⟩ | hreaches
  · exact heq ▸ hsound.accept now
  · exact hsound.moves hmoves
  · exact hsound.reaches hreaches

/-- **A server stays sound, whatever happens.** -/
theorem Sound.perform (hsound : h.Sound) (acts : List Act) : (h.perform acts).Sound := by
  induction acts generalizing h with
  | nil => exact hsound
  | cons a acts ih => exact ih (hsound.act a)

theorem sound_new (own : Hello) (checker : Checker) (inject : Injector) (tuning : Tuning)
    (entropy : Entropy) (maxClients : Nat) :
    (Host.new own checker inject tuning entropy maxClients).Sound where
  length_eq := rfl
  own _ _ hc := by simp [Host.new] at hc
  fits _ _ _ hc := by simp [Host.new] at hc
  registry := ⟨List.nodup_nil, by simp [Host.new, Registry.new]⟩

/-! ## A server to look at -/

/-- A server for one client that takes any answer to its challenge, with queues of this capacity. -/
def lenient (room : Nat) : Host :=
  new ⟨⟨1, 0⟩, ⟨⟨List.replicate 16 7, rfl⟩, "desk", 0⟩⟩ ⟨fun _ _ _ ↦ true⟩ (fun _ ↦ .ok ())
    ⟨1000, 1000, 1024, room, 100⟩ ⟨fun _ ↦ .zero, fun _ ↦ ⟨⟨List.replicate 16 7, rfl⟩⟩⟩ 1

end Host

namespace Act

/-- So many moves of the first connection, with these bytes to read at each of them. -/
def goesOn (b : Bytes) (n : Nat) : List Act :=
  List.replicate n (.move 0 0 ⟨⟨1024, b, false⟩, .new 1024⟩)

/-- The first connection makes moves, of which the first reads a frame with this message. -/
def hears (seq : UInt32) (m : Message) (n : Nat) : List Act :=
  goesOn ((((Link.new 1 1024).frameOf seq m).map (·.rest)).toOption.getD []) 1 ++ goesOn [] n

/-- A connection is accepted, and its peer is challenged. -/
def greeting : List Act :=
  .accept 0 :: hears 1 (.hello ⟨⟨1, 0⟩, ⟨⟨List.replicate 16 8, rfl⟩, "laptop", 0⟩⟩) 8

/-- The peer answers, and its session is registered. -/
def answering : List Act := hears 2 (.auth (.response [])) 2

/-- The verdict is sent, and the session begins. -/
def beginning : List Act := goesOn [] 5

end Act

end DeskLink.Server
