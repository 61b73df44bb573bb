import DeskLink.Proofs.Server.Moves

/-!
# What a shutdown reaches

A shutdown looks into the registry once and leaves a command for each session it finds. Such a
session has been told: the command waits in its mailbox until the session takes it, and by taking it
the session leaves its loop. So it stays told, whatever happens, and a session is told even when its
handshake is not quite over, as long as it is registered.

A handshake that registers its session later is not reached, and nobody looks again. Its session
runs with an empty mailbox at a server that has been shut down, `untold_latecomer`.
-/

namespace DeskLink.Server

open Session (Worker Outlet Mailbox)

namespace Connection

variable {c c' : Connection} {out out' : Outlet}

/-- A command waits for the session of this connection, or it has left. -/
def Told (c : Connection) (out : Outlet) : Prop := out.commands.waiting ≠ [] ∨ c.Left

instance (c : Connection) : Decidable c.Left := by
  unfold Left
  split <;> infer_instance

instance (c : Connection) (out : Outlet) : Decidable (c.Told out) :=
  inferInstanceAs (Decidable (_ ∨ _))

theorem Told.turns (h : c.Told out) (hturns : c.Turns out c' out') : c'.Told out' := by
  rcases h with hwaiting | hleft
  · cases hturns with
    | @runs w w' effect _ _ _ hleads hstage' =>
      cases effect with
      -- Only taking the command empties the mailbox, and then the session has left.
      | command => exact .inr (by simp [Left, hstage', hleads.2])
      | _ => exact .inl hwaiting
    | _ => exact .inl hwaiting
  · exact .inr (hleft.turns hturns)

theorem Told.reached (h : c.Told out) (hreached : Reached out out') : c.Told out' := by
  rcases h with hwaiting | hleft
  · exact .inl fun hnil ↦ hwaiting (List.prefix_nil.mp (hnil ▸ hreached.commands.2.2))
  · exact .inr hleft

/-- Whoever is asked to close is told: a mailbox without room has commands in it. -/
theorem Fits.told_post (h : c.Fits out) (reason : CloseReason) :
    c.Told { out with commands := (out.commands.post reason).2 } := by
  rcases out.commands.post_cases reason with ⟨hclosed | hfull, hsame⟩ | happended
  · exact .inr (h.closed hclosed)
  · rw [hsame]
    refine .inl fun hnil ↦ ?_
    rw [hnil, List.length_nil] at hfull
    exact absurd h.room (Nat.not_lt.mpr hfull)
  · exact .inl (by simp [happended])

end Connection

namespace Host

variable {h h' : Host} {key : Nat}

/-- The session with this outlet has been told to close. -/
def Told (h : Host) (key : Nat) : Prop :=
  ∃ c out, h.connections[key]? = some c ∧ h.outlets[key]? = some out ∧ c.Told out

instance (h : Host) (key : Nat) : Decidable (h.Told key) :=
  match hc : h.connections[key]?, hout : h.outlets[key]? with
  | some c, some out => decidable_of_iff (c.Told out) (by simp [Told, hc, hout])
  | none, _ => isFalse (by simp [Told, hc])
  | some _, none => isFalse (by simp [Told, hout])

theorem Told.reaches (htold : h.Told key) (hreaches : h.Reaches h') : h'.Told key := by
  obtain ⟨c, out, hc, hout, htold⟩ := htold
  obtain ⟨hlt, -⟩ := List.getElem?_eq_some_iff.mp hout
  have hout' := List.getElem?_eq_getElem (hreaches.length_eq.symm ▸ hlt)
  obtain ⟨out₁, hout₁, hreached⟩ := hreaches.outlet key _ hout'
  obtain rfl := Option.some.inj (hout.symm.trans hout₁)
  exact ⟨c, _, hreaches.connections_eq ▸ hc, hout', htold.reached hreached⟩

theorem Told.moves {i : Nat} {c c' : Connection} {out out' : Outlet} (htold : h.Told key)
    (hmoves : h.Moves i h' c c' out out') : h'.Told key := by
  obtain ⟨d, other, hd, hother, htold⟩ := htold
  rcases Decidable.em (i = key) with rfl | hne
  · obtain rfl := Option.some.inj (hd.symm.trans hmoves.connection)
    obtain rfl := Option.some.inj (hother.symm.trans hmoves.outlet)
    exact ⟨c', out', hmoves.connection', hmoves.outlet', htold.turns hmoves.turns⟩
  · refine ⟨d, other, ?_, ?_, htold⟩
    · rw [hmoves.connections_eq, List.getElem?_set_ne hne, hd]
    · rw [hmoves.outlets_eq, List.getElem?_set_ne hne, hother]

theorem Told.accept (htold : h.Told key) (now : Instant) : (h.accept now).Told key := by
  obtain ⟨c, out, hc, hout, htold⟩ := htold
  obtain ⟨hlt, -⟩ := List.getElem?_eq_some_iff.mp hc
  obtain ⟨hlt', -⟩ := List.getElem?_eq_some_iff.mp hout
  exact ⟨c, out, (List.getElem?_append_left hlt).trans hc,
    (List.getElem?_append_left hlt').trans hout, htold⟩

theorem Told.act (htold : h.Told key) (hsound : h.Sound) (a : Act) : (h.act a).Told key := by
  rcases act_cases hsound a with ⟨now, -, heq⟩ | ⟨i, c, c', out, out', hmoves⟩ | hreaches
  · exact heq ▸ htold.accept now
  · exact htold.moves hmoves
  · exact htold.reaches hreaches

theorem Told.perform (htold : h.Told key) (hsound : h.Sound) (acts : List Act) :
    (h.perform acts).Told key := by
  induction acts generalizing h with
  | nil => exact htold
  | cons a acts ih => exact ih (htold.act hsound a) (hsound.act a)

/-! ## The shutdown -/

private theorem told_close (hsound : h.Sound) {id : SessionId}
    (hcontrol : h.registry.control id = some key) (hkey : key < h.outlets.length)
    (reason : CloseReason) : (h.act (.close id reason)).Told key := by
  have hout := List.getElem?_eq_getElem hkey
  have hc := List.getElem?_eq_getElem (hsound.length_eq ▸ hkey)
  rw [act_close hcontrol hout]
  exact ⟨_, _, hc, List.getElem?_set_self hkey, (hsound.fits key _ _ hc hout).told_post reason⟩

/-- One of several sessions that are asked to close one after the other is told. -/
theorem told_closes (hsound : h.Sound) {records : List Record} {r : Record} (hr : r ∈ records)
    (hcontrol : h.registry.control r.session = some key) (hkey : key < h.outlets.length)
    (reason : CloseReason) :
    (h.perform (records.map fun r ↦ .close r.session reason)).Told key := by
  obtain ⟨before, after, rfl⟩ := List.append_of_mem hr
  have hreaches := h.reaches_closes reason before
  have hbefore := hsound.perform (before.map fun r ↦ .close r.session reason)
  rw [List.map_append, perform_append, List.map_cons, perform_cons]
  refine (told_close hbefore ?_ ?_ reason).perform (hbefore.act _) _
  · rw [hreaches.registry_eq, hcontrol]
  · rw [hreaches.length_eq]
    exact hkey

private theorem told_shutdown (hsound : h.Sound) {e : Entry} (he : e ∈ h.registry.entries) :
    ∃ key, e.control = some key ∧ (h.act .shutdown).Told key := by
  obtain ⟨key, hkey, hcontrol⟩ := hsound.registry.reach e he
  have hr : e.record ∈ h.registry.sessions := by
    rw [Registry.sessions, List.mem_mergeSort]
    exact List.mem_map_of_mem he
  have hstopped : ({ h with stopped := true } : Host).Sound :=
    ⟨hsound.length_eq, hsound.own, hsound.fits, hsound.registry⟩
  refine ⟨key, hcontrol, ?_⟩
  rw [act_shutdown]
  exact told_closes hstopped hr ((hsound.registry.control_eq he).trans hcontrol) hkey _

/-- **A shutdown tells whoever is registered.** Whatever has happened at a server and whatever
happens after it is shut down, each session that was in the registry at that moment has a command
waiting in its mailbox, or has left its loop. -/
theorem told_of_shutdown (own : Hello) (checker : Checker) (inject : Injector) (tuning : Tuning)
    (entropy : Entropy) (maxClients : Nat) (before after : List Act) {e : Entry}
    (he : e ∈ ((new own checker inject tuning entropy maxClients).perform
      before).registry.entries) :
    ∃ key, e.control = some key ∧
      ((new own checker inject tuning entropy maxClients).perform
        (before ++ .shutdown :: after)).Told key := by
  have hsound := (sound_new own checker inject tuning entropy maxClients).perform before
  obtain ⟨key, hcontrol, htold⟩ := told_shutdown hsound he
  refine ⟨key, hcontrol, ?_⟩
  rw [perform_append, perform_cons]
  exact htold.perform (hsound.act _) after

/-- A session that is registered, but not yet told the verdict, when its server is shut down is
told to close. -/
theorem told_newcomer :
    let before := Act.greeting ++ Act.answering
    let e : Entry := ⟨.start ⟨⟨List.replicate 16 7, rfl⟩⟩
      ⟨⟨List.replicate 16 8, rfl⟩, "laptop", 0⟩ ⟨1, 0⟩ 0, some 0⟩
    e ∈ ((lenient 4).perform before).registry.entries ∧
      ((lenient 4).perform (before ++ .shutdown :: Act.beginning)).Told 0 := by
  intro before e
  have htold (before after : List Act)
      (he : e ∈ ((lenient 4).perform before).registry.entries) :
      ((lenient 4).perform (before ++ .shutdown :: after)).Told 0 := by
    obtain ⟨key, hcontrol, htold⟩ := told_of_shutdown _ _ _ _ _ _ before after he
    exact Option.some.inj hcontrol ▸ htold
  have he : e ∈ ((lenient 4).perform before).registry.entries := by decide +kernel
  exact ⟨he, htold before _ he⟩

/-- A session whose peer is still to answer when its server is shut down is not: the handshake goes
on, the session begins, and there it runs without a command. -/
theorem untold_latecomer :
    let h := (lenient 4).perform (Act.greeting ++ .shutdown :: (Act.answering ++ Act.beginning))
    h.stopped = true ∧ h.registry.entries.map (·.control) = [some 0] ∧
      (h.connections.map fun c ↦ match c.stage with
        | .running w => some w.leave
        | _ => none) = [some 0] ∧ ¬ h.Told 0 := by
  decide +kernel

end Host

end DeskLink.Server
