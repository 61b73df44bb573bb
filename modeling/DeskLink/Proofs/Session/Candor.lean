import DeskLink.Proofs.Session.Leaving
import DeskLink.Proofs.Session.InFlight
import DeskLink.Proofs.Transport.Reassembly

/-!
# What a session says

A session that has no reason to report anything says little: heartbeats, their acknowledgements,
input events, and at the end that it was told to close. All of these are short, can be written and
are read as they were written, so a frame limit of 512 bytes keeps none of them back.

A worker stands by its messages (`Worker.Vouches`), that is, a notice that it has closed for some
reason is true. It stays true, since a session does not change its mind about how it ends. And as
long as it has no failure but a lost connection to tell, it begins nothing that it does not stand
by (`utters_of_does`).
-/

namespace DeskLink

/-! ## Short messages -/

/-- The messages of a session in which nothing goes wrong. -/
def Message.Brief : Message → Prop
  | .heartbeat _ | .heartbeatAck _ | .input _ | .close _ => True
  | .hello _ | .auth _ | .authResult _ | .report _ => False

theorem Message.Brief.size_le {m : Message} (h : m.Brief) : m.size ≤ 21 := by
  cases m with
  | heartbeat | heartbeatAck | close => exact Nat.le_of_ble_eq_true rfl
  | input e => cases e <;> exact Nat.le_of_ble_eq_true rfl
  | hello | auth | authResult | report => exact h.elim

private theorem Message.Brief.not_oversized {m : Message} (h : m.Brief) : ¬ m.Oversized := by
  cases m with
  | hello | auth | authResult | report => exact h.elim
  | heartbeat | heartbeatAck | input | close => exact not_false

namespace Envelope

theorem length_of_brief {e : Envelope} {b : Bytes} (h : e.message.Brief)
    (hencode : e.encode = .ok b) : b.length ≤ 512 := by
  have hsize := h.size_le
  rw [length_encode hencode]
  split <;> omega

theorem decode_of_brief {e : Envelope} {b : Bytes} (h : e.message.Brief)
    (hencode : e.encode = .ok b) : decode b = .ok e := by
  have hhonest : ¬ e.message.Contradictory := by
    cases hmessage : e.message <;> simp_all [Message.Brief, Message.Contradictory]
  simpa [hhonest] using decode_of_encode hencode []

end Envelope

private theorem Link.prepare_of_brief {l : Link} {m : Message} (h : m.Brief)
    (hlimit : 512 ≤ l.limit) {why : Failure} {l' : Link}
    (hprepare : l.prepare m = (.error why, l')) :
    ∃ detail, why = .lost detail := by
  unfold prepare at hprepare
  split at hprepare
  · exact ⟨_, (Except.error.inj (Prod.mk.inj hprepare).1).symm⟩
  · rename_i seq outbound _
    have hroom : (if l.binding.isSome then 23 else 7) + m.size ≤ l.limit := by
      have hsize := h.size_le
      split <;> omega
    obtain ⟨t, hframe⟩ : ∃ t, l.frameOf seq m = .ok t :=
      exists_frameOf.mpr ⟨h.not_oversized, hroom⟩
    rw [hframe] at hprepare
    nomatch hprepare

private theorem Frame.Reader.limit_of_takeFrame {r r' : Reader} {body : Bytes}
    (h : r.takeFrame = .ok (some (body, r'))) : r'.limit = r.limit := by
  have hfinds := r.finds
  rw [h] at hfinds
  cases hfinds with | frame => rfl

theorem Link.limit_of_receive {l l' : Link} {reply : ReadReply} {arrival : Link.Arrival}
    (h : l.receive reply = (arrival, l')) : l'.limit = l.limit := by
  have hreceives := Link.receives_of_receive h
  cases hreceives with
  | blocked | read | lost => rfl
  | malformed htake | unknown htake | dropped htake | passed htake =>
    exact Frame.Reader.limit_of_takeFrame htake

namespace Session

/-- An ending that the other side learns about only by a notice, if at all. -/
def Peaceful : Ending → Prop
  | .ok _ | .error (.lost _) => True
  | .error _ => False

namespace Worker

/-! ## What a worker stands by -/

/-- The worker stands by this message: a notice names the reason for which it was told to close. -/
def Vouches (w : Worker) : Message → Prop
  | .heartbeat _ | .heartbeatAck _ | .input _ => True
  | .close reason => w.ending? = some (.ok ⟨.own, reason⟩)
  | .hello _ | .auth _ | .authResult _ | .report _ => False

variable {w w' : Worker} {o : Offer} {effect : Effect} {m : Message}

theorem Vouches.brief (h : w.Vouches m) : m.Brief := by
  cases m with
  | heartbeat | heartbeatAck | input | close => trivial
  | hello | auth | authResult | report => exact h.elim

theorem Vouches.mono (h : w.Vouches m)
    (hending : ∀ e, w.ending? = some e → w'.ending? = some e) : w'.Vouches m := by
  cases m with
  | heartbeat | heartbeatAck | input => trivial
  | close reason => exact hending _ h
  | hello | auth | authResult | report => exact h.elim

/-- What a move can be for the direction in which a worker sends, as far as honesty goes. -/
inductive Utters (w w' : Worker) : Effect → Prop where
  | continues {effect : Effect} (hcontinues : w.Continues effect.written w') : Utters w w' effect
  | givesUp {effect : Effect} (hwritten : effect.written = []) (hunsent : w'.unsent = [])
      (hintact : ¬ w'.Intact) (hlink : w'.link = w.link) : Utters w w' effect
  | begins {effect : Effect} {m : Message} (hwritten : effect.written = []) (hm : w'.Vouches m)
      (hbegins : w.Begins m w') : Utters w w' effect

theorem utters_send {w₁ : Worker} (hphase : w.phase = .waiting) (hm : ∀ w', Vouches w' m)
    (hversion : w₁.link.version = w.link.version) (hbinding : w₁.link.binding = w.link.binding)
    (houtbound : w₁.link.outbound = w.link.outbound) (hwritten : effect.written = []) :
    w.Utters (w₁.send m) effect := by
  rcases begins_or_continues hphase m hversion hbinding houtbound with hbegins | ⟨-, hcontinues⟩
  · exact .begins hwritten (hm _) hbegins
  · exact .continues (hwritten ▸ hcontinues)

private theorem utters_beat (hphase : w.phase = .waiting) (now : Instant) :
    w.Utters (w.beat now) .none := by
  unfold beat
  split
  rename_i due monitor _
  cases due with
  | nothing => exact .continues (continues_of_phase_eq rfl rfl (UInt32.le_refl _))
  | beat token => exact utters_send hphase (fun _ ↦ trivial) rfl rfl rfl rfl
  | stale silent => exact .continues (continues_finish hphase _ rfl (UInt32.le_refl _))

private theorem utters_handle {w₁ : Worker} (hphase : w.phase = .waiting) (m : Message)
    (hsame : w₁.phase = w.phase) (hversion : w₁.link.version = w.link.version)
    (hbinding : w₁.link.binding = w.link.binding) (houtbound : w₁.link.outbound = w.link.outbound) :
    w.Utters (w₁.handle o m).1 (w₁.handle o m).2 := by
  have hle : w.link.outbound.last ≤ w₁.link.outbound.last := houtbound ▸ UInt32.le_refl _
  cases m with
  | heartbeat token => exact utters_send hphase (fun _ ↦ trivial) hversion hbinding houtbound rfl
  | close reason | report r => exact .continues (continues_finish hphase _ hbinding hle)
  | input | heartbeatAck | hello | auth | authResult =>
    exact .continues (continues_of_phase_eq hsame hbinding hle)

private theorem utters_parts {now : Instant} {e : Ending} (hphase : w.phase = .ending e)
    (hpeace : Peaceful e) (h : w.Parts now e w') : w.Utters w' .closedQueue := by
  have hunsent : w.unsent = [] := by rw [unsent, hphase]
  cases h with
  | silent => exact .continues ⟨hunsent, False.elim, False.elim, rfl, UInt32.le_refl _⟩
  | @begins m seq body t hfarewell hseq hbody ht =>
    have hintact : w.Intact := by
      rw [Intact, hphase]
      exact fun hnone ↦ Option.some_ne_none m (hfarewell.symm.trans hnone)
    refine .begins rfl ?_ ⟨hunsent, hintact, False.elim, rfl, hseq, body, hbody, ht⟩
    -- Of all peaceful endings only that by a command has a farewell.
    cases e with
    | ok fin =>
      obtain ⟨initiator, reason⟩ := fin
      cases initiator with
      | own =>
        obtain rfl := Option.some.inj hfarewell
        rfl
      | peer => exact (Option.some_ne_none m hfarewell.symm).elim
    | error why =>
      cases why with
      | lost => exact (Option.some_ne_none m hfarewell.symm).elim
      | _ => exact hpeace.elim
  | refuses _ hle => exact .continues ⟨hunsent, False.elim, False.elim, rfl, hle⟩

theorem utters_of_does (h : w.Does o w' effect) (hpeace : ∀ e, w.ending? = some e → Peaceful e) :
    w.Utters w' effect := by
  cases carries_of_does h with
  | goesOn _ hcontinues => exact .continues hcontinues
  | givesUp hunsent hintact _ hlink => exact .givesUp rfl hunsent hintact hlink
  | beats hphase => exact utters_beat hphase _
  | hears hlistens hreceive =>
    obtain ⟨reader, inbound, count, rfl⟩ := Link.outgoing_receive hreceive
    exact utters_handle hlistens.phase_eq _ rfl rfl rfl rfl
  | forwards hphase => exact utters_send hphase (fun _ ↦ trivial) rfl rfl rfl rfl
  | parts hphase hparts =>
    exact utters_parts hphase (hpeace _ (by simp only [ending?, hphase])) hparts

theorem written_of_not_accepts (h : w.Does o w' effect) (hwrite : ∀ n, o.write ≠ .accepts n) :
    effect.written = [] := by
  cases h with
  | writes _ hwrote | bids _ hwrote =>
    obtain ⟨n, htakes⟩ := Frame.Transmission.exists_accepts_of_wrote hwrote
    exact absurd htakes (hwrite n)
  | @hears m => cases m <;> rfl
  | _ => rfl

/-! ## How a worker ends -/

/-- How a session may end when this is the worker at its other end: by a command, because the
connection is lost, or because it was told so and this worker left by a command for that reason. -/
def Allows (other : Worker) : Ending → Prop
  | .ok ⟨.own, _⟩ | .error (.lost _) => True
  | .ok ⟨.peer, reason⟩ => other.ending? = some (.ok ⟨.own, reason⟩)
  | .error _ => False

/-- What may come in when this is the worker at the other end: messages that it stands by, until the
connection is lost. -/
inductive Expected (other : Worker) : Link.Arrival → Prop where
  | blocked : Expected other .blocked
  | read {count : Nat} : Expected other (.read count)
  | frame {m : Message} (hm : other.Vouches m) : Expected other (.frame (some m))
  | lost {detail : String} : Expected other (.failed (.lost detail))

variable {other other' : Worker} {e : Ending}

theorem Allows.peaceful (h : other.Allows e) : Peaceful e := by
  unfold Allows at h
  split at h
  · trivial
  · trivial
  · trivial
  · exact h.elim

theorem Allows.mono (h : other.Allows e)
    (hending : ∀ e, other.ending? = some e → other'.ending? = some e) : other'.Allows e := by
  unfold Allows at h ⊢
  split at h
  · trivial
  · trivial
  · exact hending _ h
  · exact h

theorem allows_of_waiting (hphase : w.phase = .waiting) (he : w.ending? = some e) :
    other.Allows e := by
  simp [ending?, hphase] at he

theorem allows_of_send (hm : m.Brief) (hlimit : 512 ≤ w.link.limit)
    (he : (w.send m).ending? = some e) : other.Allows e := by
  unfold send at he
  split at he
  · nomatch he
  · rename_i why link hprepare
    obtain ⟨detail, rfl⟩ := Link.prepare_of_brief hm hlimit hprepare
    obtain rfl := Option.some.inj he
    trivial

private theorem allows_of_beat (hphase : w.phase = .waiting) (hlimit : 512 ≤ w.link.limit)
    {now : Instant} (he : (w.beat now).ending? = some e) : other.Allows e := by
  unfold beat at he
  split at he
  rename_i due monitor _
  cases due with
  | nothing => exact allows_of_waiting hphase he
  | beat token =>
    have hm : (Message.heartbeat (UInt64.ofNat token)).Brief := trivial
    exact allows_of_send (w := { w with monitor }) hm hlimit he
  | stale silent =>
    obtain rfl := Option.some.inj he
    trivial

private theorem allows_of_handle (hphase : w.phase = .waiting) (hm : other.Vouches m)
    (hlimit : 512 ≤ w.link.limit) (he : (w.handle o m).1.ending? = some e) : other.Allows e := by
  cases m with
  | heartbeat token =>
    have hanswer : (Message.heartbeatAck token).Brief := trivial
    exact allows_of_send hanswer hlimit he
  | close reason =>
    obtain rfl := Option.some.inj he
    exact hm
  | input | heartbeatAck => exact allows_of_waiting hphase he
  | hello | auth | authResult | report => exact hm.elim

/-- **A session ends well** when it receives nothing but what is expected. -/
theorem allows_of_does (h : w.Does o w' effect) (hrunning : w.Running) (hlimit : 512 ≤ w.link.limit)
    (hexpected : other.Expected (w.link.receive o.read).1) (he : w'.ending? = some e) :
    other.Allows e := by
  cases h with
  | obeys =>
    obtain rfl := Option.some.inj he
    trivial
  | abandoned hphase => exact allows_of_waiting hphase he
  | beats hphase => exact allows_of_beat hphase hlimit he
  | reads hlistens | skips hlistens => exact allows_of_waiting hlistens.phase_eq he
  | @hears m link hlistens hreceive =>
    have hphase : ({ w with link } : Worker).phase = .waiting := hlistens.phase_eq
    have hlimit' : 512 ≤ ({ w with link } : Worker).link.limit :=
      (Link.limit_of_receive hreceive).symm ▸ hlimit
    rw [hreceive] at hexpected
    cases hexpected with | frame hm => exact allows_of_handle hphase hm hlimit' he
  | deafened _ hreceive =>
    rw [hreceive] at hexpected
    obtain rfl := Option.some.inj he
    cases hexpected with | lost => trivial
  | @forwards event =>
    have hinput : (Message.input event).Brief := trivial
    exact allows_of_send hinput hlimit he
  | stalls =>
    obtain rfl := Option.some.inj he
    trivial
  | writes | completes => nomatch he
  | breaks _ hfailure =>
    obtain ⟨text, rfl⟩ := Frame.Transmission.exists_io_of_failed hfailure
    obtain rfl := Option.some.inj he
    trivial
  | parts hphase | bids hphase | parted hphase | abandons hphase | shuts hphase =>
    rw [Running, hphase] at hrunning
    exact hrunning.elim

theorem limit_send (w : Worker) (m : Message) : (w.send m).link.limit = w.link.limit := by
  have hsends := w.sends m
  generalize w.send m = w' at hsends ⊢
  cases hsends <;> rfl

theorem limit_of_does (h : w.Does o w' effect) : w'.link.limit = w.link.limit := by
  cases h with
  | beats =>
    unfold beat
    split
    rename_i due monitor _
    cases due with
    | beat token => exact limit_send _ _
    | nothing | stale => rfl
  | reads _ hreceive | skips _ hreceive | deafened _ hreceive =>
    exact Link.limit_of_receive hreceive
  | @hears m link _ hreceive =>
    have hlimit : ({ w with link } : Worker).link.limit = w.link.limit :=
      Link.limit_of_receive hreceive
    cases m with
    | heartbeat token => exact (limit_send _ _).trans hlimit
    | _ => exact hlimit
  | forwards => exact limit_send w _
  | parts _ hparts => cases hparts <;> rfl
  | _ => rfl

end Worker

end Session

end DeskLink
