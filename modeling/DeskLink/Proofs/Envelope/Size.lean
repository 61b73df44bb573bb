import DeskLink.Proofs.Envelope.RoundTrip
import DeskLink.Proofs.Link
import DeskLink.Proofs.Transport.Framing

/-!
# How long envelopes are

How many bytes a message takes is read off the message: its fields have fixed widths, but for the
texts and the credential, which stand behind their length. So whether a link can send a message
depends on nothing but the message, the limit, and whether the envelope names a session.
-/

namespace DeskLink

def Message.size : Message → Nat
  | .hello h => 24 + (Utf8.encode h.identity.name).length
  | .auth (.challenge _) => 33
  | .auth (.response credential) => 3 + credential.length
  | .authResult v => if v.session.isSome then 18 else 2
  | .heartbeat _ | .heartbeatAck _ => 8
  | .input (.keyboard _) => 13
  | .input (.mouse _) => 21
  | .close _ => 1
  | .report r => 3 + (Utf8.encode r.description).length

/-- Only a text or a credential makes a message long, and of that no more can be written than two
bytes can count. -/
theorem Message.size_lt {m : Message} (h : ¬ m.Oversized) : m.size < 65561 := by
  cases m with
  | hello v | report v =>
    have hle := Nat.le_of_not_lt h
    rw [size]
    omega
  | auth a =>
    cases a with
    | challenge => exact Nat.le_of_ble_eq_true rfl
    | response credential =>
      have hle := Nat.le_of_not_lt h
      rw [size]
      omega
  | authResult v =>
    rw [size]
    split <;> decide
  | input e => cases e <;> exact Nat.le_of_ble_eq_true rfl
  | heartbeat | heartbeatAck | close => exact Nat.le_of_ble_eq_true rfl

namespace Envelope

theorem length_encodeField {field : String} {s c : Bytes} (h : encodeField field s = .ok c) :
    c.length = 2 + s.length := by
  obtain ⟨-, rfl⟩ := encodeField_eq_ok.mp h
  rw [List.length_append, Bytes.length_ofNat]

private theorem length_encodeBody {m : Message} {body : Bytes} (h : encodeBody m = .ok body) :
    body.length = m.size := by
  cases m with
  | hello h =>
    obtain ⟨name, hname, heq⟩ := bind_eq_ok.mp h
    have hlength := length_encodeField hname
    obtain rfl := Except.ok.inj heq
    simp [Message.size, hlength]
    omega
  | auth a =>
    cases a with
    | challenge nonce =>
      obtain rfl := Except.ok.inj h
      simp [Message.size]
    | response credential =>
      obtain ⟨field, hfield, rfl⟩ := map_eq_ok.mp h
      rw [List.length_cons, length_encodeField hfield, Message.size]
      omega
  | authResult v =>
    obtain rfl := Except.ok.inj h
    obtain ⟨accepted, session⟩ := v
    cases session <;> simp [encodeVerdict, Message.size]
  | heartbeat token | heartbeatAck token =>
    obtain rfl := Except.ok.inj h
    exact Bytes.length_ofNat _ _
  | input e =>
    obtain rfl := Except.ok.inj h
    cases e <;> simp [encodeEvent, Message.size]
  | close reason =>
    obtain rfl := Except.ok.inj h
    rfl
  | report r =>
    obtain ⟨field, hfield, rfl⟩ := map_eq_ok.mp h
    rw [List.length_cons, length_encodeField hfield, Message.size]
    omega

theorem exists_encode {e : Envelope} : (∃ b, e.encode = .ok b) ↔ ¬ e.message.Oversized := by
  rw [← encode_eq_error]
  cases e.encode <;> simp

theorem length_encode {e : Envelope} {b : Bytes} (h : e.encode = .ok b) :
    b.length = (if e.session.isSome then 23 else 7) + e.message.size := by
  obtain ⟨body, hbody, rfl⟩ := of_encode h
  rw [List.length_append, length_encodeHeader, length_encodeBody hbody]

theorem short_of_encode {e : Envelope} {b : Bytes} (h : e.encode = .ok b) : Frame.Short b := by
  have hsize := Message.size_lt (exists_encode.mp ⟨b, h⟩)
  rw [Frame.Short, Frame.lengthSize, length_encode h]
  split <;> omega

end Envelope

namespace Link

variable {l : Link} {seq : UInt32} {m : Message}

/-- A link can send a message exactly if it can be written and its envelope is within the limit. -/
theorem exists_frameOf : (∃ t, l.frameOf seq m = .ok t) ↔
    ¬ m.Oversized ∧ (if l.binding.isSome then 23 else 7) + m.size ≤ l.limit := by
  have hlength : ∀ body, (l.envelope seq m).encode = .ok body →
      body.length = (if l.binding.isSome then 23 else 7) + m.size :=
    fun _ hbody ↦ Envelope.length_encode hbody
  constructor
  · rintro ⟨t, ht⟩
    obtain ⟨body, hbody, hle, -⟩ := frameOf_eq_ok.mp ht
    exact ⟨Envelope.exists_encode.mp ⟨body, hbody⟩, hlength body hbody ▸ hle⟩
  · rintro ⟨hfits, hle⟩
    obtain ⟨body, hbody⟩ : ∃ body, (l.envelope seq m).encode = .ok body :=
      Envelope.exists_encode.mpr hfits
    exact ⟨_, frameOf_eq_ok.mpr ⟨body, hbody, hlength body hbody ▸ hle, rfl⟩⟩

end Link

end DeskLink
