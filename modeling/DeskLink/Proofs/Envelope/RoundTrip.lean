import DeskLink.Envelope.Decoding
import DeskLink.Proofs.Checked
import DeskLink.Proofs.Text

/-!
# Reading what was written

A reader of an envelope finds each part where the writer put it: at the offset that the parts
before it take up, whatever follows. So there is one lemma for each way to read a field, about a
field between something of a known length and anything at all; headers and bodies are put together
from these. What follows a whole body is ignored.

Two messages are special. One that is oversized has no bytes, because a length is written in two of
them. A verdict that contradicts itself has bytes, but no reader accepts them.
-/

namespace DeskLink

namespace Envelope

/-! ## Fields -/

section Fields

variable (before after : Bytes) {offset : Nat}

theorem slice?_append {s : Bytes} {n : Nat} (hbefore : before.length = offset)
    (hs : s.length = n) : Bytes.slice? (before ++ (s ++ after)) offset n = some s := by
  have htake : ((before ++ (s ++ after)).drop offset).take n = s := by
    rw [List.drop_left' hbefore, List.take_left' hs]
  rw [Bytes.slice?, htake, if_pos hs]

theorem numberAt_append (width : Nat) {n : Nat} (hbefore : before.length = offset)
    (hn : n < 1 <<< (8 * width)) :
    numberAt (before ++ (Bytes.ofNat width n ++ after)) offset width = .ok n := by
  have hvalue : Bytes.toNat (Bytes.ofNat width n) = n := by
    rw [Bytes.toNat_ofNat, Nat.mod_eq_of_lt hn]
  rw [numberAt, slice?_append before after hbefore (Bytes.length_ofNat width n)]
  exact congrArg Except.ok hvalue

theorem identifierAt_append (hbefore : before.length = offset) (u : Uuid) :
    identifierAt (before ++ (u.bytes ++ after)) offset = .ok u := by
  rw [identifierAt, slice?_append before after hbefore u.length_bytes, Option.bind_some,
    Uuid.ofBytes?_bytes]

theorem byteAt_append (hbefore : before.length = offset) (x : UInt8) :
    byteAt (before ++ (x :: after)) offset = x := by
  subst hbefore
  simp [byteAt]

theorem fieldAt_append {s : Bytes} (hbefore : before.length = offset) (hs : s.length < 65536) :
    fieldAt (before ++ (Bytes.ofNat 2 s.length ++ (s ++ after))) offset = .ok s := by
  have hsize : Bytes.toNat (Bytes.ofNat 2 s.length) = s.length := by
    rw [Bytes.toNat_ofNat]
    exact Nat.mod_eq_of_lt hs
  have hlength := slice?_append before (s ++ after) hbefore (Bytes.length_ofNat 2 s.length)
  have hbytes : Bytes.slice? (before ++ (Bytes.ofNat 2 s.length ++ (s ++ after))) (offset + 2)
      s.length = some s := by
    rw [← List.append_assoc before]
    exact slice?_append _ after (by simp [hbefore]) rfl
  simp only [fieldAt, hlength, hsize, hbytes]

end Fields

theorem encodeField_eq_ok {field : String} {s c : Bytes} :
    encodeField field s = .ok c ↔ s.length < 65536 ∧ Bytes.ofNat 2 s.length ++ s = c := by
  unfold encodeField
  split
  · rename_i hlt
    simp [hlt]
  · rename_i hge
    exact ⟨nofun, fun h ↦ absurd h.1 hge⟩

theorem encodeField_eq_error {field : String} {s : Bytes} :
    (∃ d, encodeField field s = .error d) ↔ 65535 < s.length := by
  unfold encodeField
  split
  · rename_i hlt
    exact ⟨nofun, fun h ↦ absurd hlt (Nat.not_lt.mpr h)⟩
  · rename_i hge
    exact ⟨fun _ ↦ Nat.not_lt.mp hge, fun _ ↦ ⟨_, rfl⟩⟩

theorem need_of_le {b : Bytes} {least : Nat} (part : String) (h : least ≤ b.length) :
    need b least part = .ok () := if_neg (Nat.not_lt.mpr h)

@[simp] theorem truthOf_truthCode (field : String) (b : Bool) :
    truthOf field (truthCode b) = .ok b := by
  cases b <;> rfl

/-! ## Headers -/

theorem length_encodeHeader (version : UInt8) (session : Option SessionId) (seq : UInt32)
    (kind : Kind) :
    (encodeHeader version session seq kind).length = if session.isSome then 23 else 7 := by
  cases session <;> simp [encodeHeader]

theorem decodeHeader_encodeHeader (version : UInt8) (session : Option SessionId) (seq : UInt32)
    (kind : Kind) (body : Bytes) :
    decodeHeader (encodeHeader version session seq kind ++ body)
      = .ok ⟨version, kind.code, session, seq, (encodeHeader version session seq kind).length⟩ := by
  have hseq : seq.toNat < 1 <<< (8 * 4) := seq.toNat_lt
  have hneed : 7 ≤ (encodeHeader version session seq kind ++ body).length := by
    rw [List.length_append, length_encodeHeader]
    split <;> omega
  rw [decodeHeader, need_of_le _ hneed, length_encodeHeader]
  cases session with
  | none =>
    have hnumber := numberAt_append [version, kind.code, 0] body 4 rfl hseq
    have hbytes : encodeHeader version none seq kind ++ body
        = [version, kind.code, 0] ++ (Bytes.ofNat 4 seq.toNat ++ body) := by
      simp [encodeHeader]
    rw [hbytes]
    simp only [List.cons_append, List.nil_append, List.length_cons, List.length_nil] at hnumber ⊢
    simp [byteAt, sessionFlag, hnumber]
  | some id =>
    have hid := identifierAt_append [version, kind.code, 1] (Bytes.ofNat 4 seq.toNat ++ body) rfl
      id.uuid
    have hnumber := numberAt_append ([version, kind.code, 1] ++ id.uuid.bytes) body 4
      (by simp : _ = 19) hseq
    have hbytes : encodeHeader version (some id) seq kind ++ body
        = [version, kind.code, 1] ++ (id.uuid.bytes ++ (Bytes.ofNat 4 seq.toNat ++ body)) := by
      simp [encodeHeader, sessionFlag, SessionId.bytes]
    rw [List.append_assoc] at hnumber
    rw [hbytes]
    simp only [List.cons_append, List.nil_append, List.length_cons, List.length_nil]
      at hnumber hid ⊢
    simp [byteAt, sessionFlag, hnumber, hid, Except.map]

/-! ## Input events -/

private theorem decodeKey_encodeEvent (k : KeyEvent) (after : Bytes) :
    decodeKey (encodeEvent (.keyboard k) ++ after) = .ok (.keyboard k) := by
  have hneed : 13 ≤ (encodeEvent (.keyboard k) ++ after).length := by
    simp [encodeEvent]
    omega
  let time := Bytes.ofNat 8 k.timestamp.toNat ++ after
  have hcode := numberAt_append [1] ([truthCode k.pressed, k.modifiers.bits] ++ time) 2 rfl
    k.keyCode.toNat_lt
  have hpressed := byteAt_append ([1] ++ Bytes.ofNat 2 k.keyCode.toNat)
    (k.modifiers.bits :: time) (by simp : _ = 3) (truthCode k.pressed)
  have hmodifiers := byteAt_append ([1] ++ Bytes.ofNat 2 k.keyCode.toNat ++ [truthCode k.pressed])
    time (by simp : _ = 4) k.modifiers.bits
  have htime := numberAt_append ([1] ++ Bytes.ofNat 2 k.keyCode.toNat
    ++ [truthCode k.pressed, k.modifiers.bits]) after 8 (by simp : _ = 5) k.timestamp.toNat_lt
  rw [decodeKey, need_of_le _ hneed]
  simp only [encodeEvent, List.append_assoc, List.cons_append, List.nil_append, time,
    List.length_singleton] at hcode hpressed hmodifiers htime ⊢
  simp [hcode, hpressed, hmodifiers, htime]

private theorem code_ne_zero (b : MouseButton) : b.code ≠ 0 := by
  cases b <;> decide

private theorem lookUp_code (b : MouseButton) :
    lookUp MouseButton.ofCode? .mouseButton b.code = .ok b := by
  rw [lookUp, MouseButton.ofCode?_code]

private theorem decodeMouse_encodeEvent (m : MouseEvent) (after : Bytes) :
    decodeMouse (encodeEvent (.mouse m) ++ after) = .ok (.mouse m) := by
  have hneed : 21 ≤ (encodeEvent (.mouse m) ++ after).length := by
    simp [encodeEvent]
    omega
  let code := (m.button.map MouseButton.code).getD 0
  let time := Bytes.ofNat 8 m.timestamp.toNat ++ after
  let wheel := Bytes.ofNat 2 m.wheel.toUInt16.toNat ++ time
  let place := Bytes.ofNat 4 m.x.toUInt32.toNat ++ Bytes.ofNat 4 m.y.toUInt32.toNat
  have hx := numberAt_append [2] (Bytes.ofNat 4 m.y.toUInt32.toNat
    ++ ([code, truthCode m.pressed] ++ wheel)) 4 rfl m.x.toUInt32.toNat_lt
  have hy := numberAt_append ([2] ++ Bytes.ofNat 4 m.x.toUInt32.toNat)
    ([code, truthCode m.pressed] ++ wheel) 4 (by simp : _ = 5) m.y.toUInt32.toNat_lt
  have hbutton := byteAt_append ([2] ++ place) (truthCode m.pressed :: wheel)
    (by simp [place] : _ = 9) code
  have hpressed := byteAt_append ([2] ++ place ++ [code]) wheel
    (by simp [place] : _ = 10) (truthCode m.pressed)
  have hwheel := numberAt_append ([2] ++ place ++ [code, truthCode m.pressed]) time 2
    (by simp [place] : _ = 11) m.wheel.toUInt16.toNat_lt
  have htime := numberAt_append ([2] ++ place ++ [code, truthCode m.pressed]
    ++ Bytes.ofNat 2 m.wheel.toUInt16.toNat) after 8 (by simp [place] : _ = 13) m.timestamp.toNat_lt
  rw [decodeMouse, need_of_le _ hneed]
  simp only [encodeEvent, List.append_assoc, List.cons_append, List.nil_append, time, wheel, place,
    code, List.length_singleton] at hx hy hbutton hpressed hwheel htime ⊢
  rw [hbutton, hx, hy, hpressed, hwheel, htime]
  simp only [ok_bind, truthOf_truthCode, UInt32.ofNat_toNat, UInt16.ofNat_toNat,
    UInt64.ofNat_toNat, Int32.toInt32_toUInt32, Int16.toInt16_toUInt16]
  obtain ⟨x, y, button, pressed, wheel, timestamp⟩ := m
  cases button with
  | none => rfl
  | some b =>
    simp only [Option.map_some, Option.getD_some, if_neg (code_ne_zero b), lookUp_code]
    rfl

private theorem decodeEvent_encodeEvent (e : Event) (after : Bytes) :
    decodeEvent (encodeEvent e ++ after) = .ok e := by
  cases e with
  | keyboard k =>
    have hneed : 1 ≤ (encodeEvent (.keyboard k) ++ after).length := by
      simp [encodeEvent]
    have hkind : byteAt (encodeEvent (.keyboard k) ++ after) 0 = 1 := rfl
    rw [decodeEvent, need_of_le _ hneed, hkind, ok_bind, if_pos rfl, decodeKey_encodeEvent]
  | mouse m =>
    have hneed : 1 ≤ (encodeEvent (.mouse m) ++ after).length := by
      simp [encodeEvent]
    have hkind : byteAt (encodeEvent (.mouse m) ++ after) 0 = 2 := rfl
    rw [decodeEvent, need_of_le _ hneed, hkind, ok_bind, if_neg (by decide), if_pos rfl,
      decodeMouse_encodeEvent]

/-! ## Other bodies -/

private theorem decodeHello_append {h : Hello} {b : Bytes} (hencode : encodeHello h = .ok b)
    (after : Bytes) : decodeHello (b ++ after) = .ok h := by
  obtain ⟨field, hfield, heq⟩ := bind_eq_ok.mp hencode
  obtain ⟨hlt, rfl⟩ := encodeField_eq_ok.mp hfield
  obtain rfl := Except.ok.inj heq
  let version := [h.version.major, h.version.minor]
  let name := Utf8.encode h.identity.name
  let rest := Bytes.ofNat 2 name.length ++ (name ++ after)
  have hcapabilities := numberAt_append version (h.identity.node.bytes ++ rest) 4
    (by simp [version] : _ = 2) h.identity.capabilities.toNat_lt
  have hnode := identifierAt_append (version ++ Bytes.ofNat 4 h.identity.capabilities.toNat) rest
    (by simp [version] : _ = 6) h.identity.node
  have hname := fieldAt_append (version ++ Bytes.ofNat 4 h.identity.capabilities.toNat
    ++ h.identity.node.bytes) after (by simp [version] : _ = 22) hlt
  have hbytes : version ++ Bytes.ofNat 4 h.identity.capabilities.toNat ++ h.identity.node.bytes
      ++ (Bytes.ofNat 2 name.length ++ name) ++ after
      = version ++ (Bytes.ofNat 4 h.identity.capabilities.toNat
        ++ (h.identity.node.bytes ++ rest)) := by
    simp [rest]
  have hneed : 24 ≤ (version ++ (Bytes.ofNat 4 h.identity.capabilities.toNat
      ++ (h.identity.node.bytes ++ rest))).length := by
    simp [version, rest]
    omega
  simp only [List.append_assoc] at hnode hname
  rw [hbytes, decodeHello, need_of_le _ hneed, hcapabilities, hnode, hname]
  simp [version, byteAt]

private theorem decodeAuth_append {a : Auth} {b : Bytes} (hencode : encodeAuth a = .ok b)
    (after : Bytes) : decodeAuth (b ++ after) = .ok a := by
  cases a with
  | challenge nonce =>
    obtain rfl := Except.ok.inj hencode
    have hneed : 33 ≤ (1 :: nonce.bytes ++ after).length := by simp
    rw [decodeAuth, need_of_le _ (Nat.le_trans (by decide) hneed), need_of_le _ hneed]
    simp [byteAt, List.take_left']
  | response credential =>
    obtain ⟨field, hfield, rfl⟩ := map_eq_ok.mp hencode
    obtain ⟨hlt, rfl⟩ := encodeField_eq_ok.mp hfield
    have hcredential := fieldAt_append [2] after rfl hlt
    have hneed : 1 ≤ (2 :: (Bytes.ofNat 2 credential.length ++ credential) ++ after).length := by
      simp
    rw [decodeAuth, need_of_le _ hneed]
    simp only [List.cons_append, List.nil_append, List.length_singleton, List.append_assoc]
      at hcredential ⊢
    simp [byteAt, hcredential]

private theorem decodeVerdict_append (v : Verdict) (after : Bytes) :
    decodeVerdict (encodeVerdict v ++ after) =
      if v.accepted = v.session.isSome then .ok v else .error .verdict := by
  obtain ⟨accepted, session⟩ := v
  cases session with
  | none =>
    have hneed : 2 ≤ (truthCode accepted :: 0 :: after).length := by simp
    have hnamed : byteAt (truthCode accepted :: 0 :: after) 1 = truthCode false := rfl
    rw [encodeVerdict, decodeVerdict, List.cons_append, List.singleton_append,
      need_of_le _ hneed, hnamed]
    simp only [byteAt, List.getD_cons_zero, ok_bind, truthOf_truthCode]
    rfl
  | some id =>
    let bytes := truthCode accepted :: 1 :: (id.bytes ++ after)
    have hneed : 2 ≤ bytes.length := by simp [bytes]
    have hnamed : byteAt bytes 1 = truthCode true := rfl
    have hid : identifierAt bytes 2 = .ok id.uuid :=
      identifierAt_append [truthCode accepted, 1] after rfl id.uuid
    rw [encodeVerdict, decodeVerdict, List.cons_append, List.cons_append, need_of_le _ hneed,
      hnamed, hid]
    simp only [byteAt, List.getD_cons_zero, ok_bind, truthOf_truthCode]
    rfl

private theorem decodeToken_append (token : UInt64) (after : Bytes) :
    decodeToken (Bytes.ofNat 8 token.toNat ++ after) = .ok token := by
  have htoken : numberAt (Bytes.ofNat 8 token.toNat ++ after) 0 8 = .ok token.toNat :=
    numberAt_append [] after 8 rfl token.toNat_lt
  rw [decodeToken, htoken]
  simp [Except.map]

private theorem decodeClose_append (reason : CloseReason) (after : Bytes) :
    decodeClose ([reason.code] ++ after) = .ok reason := by
  have hneed : 1 ≤ ([reason.code] ++ after).length := by simp
  rw [decodeClose, need_of_le _ hneed]
  simp [byteAt, lookUp]

private theorem decodeReport_append {r : Report} {field : Bytes}
    (hfield : encodeField "error description" (Utf8.encode r.description) = .ok field)
    (after : Bytes) : decodeReport (r.code.code :: field ++ after) = .ok r := by
  obtain ⟨hlt, rfl⟩ := encodeField_eq_ok.mp hfield
  have hdescription := fieldAt_append [r.code.code] after rfl hlt
  have hneed : 3 ≤ (r.code.code :: (Bytes.ofNat 2 (Utf8.encode r.description).length
      ++ Utf8.encode r.description) ++ after).length := by
    simp
  rw [decodeReport, need_of_le _ hneed]
  simp only [List.cons_append, List.nil_append, List.length_singleton, List.append_assoc]
    at hdescription ⊢
  simp [byteAt, lookUp, hdescription]

/-! ## Whole envelopes -/

theorem kind_of_decodeBody {kind : Kind} {b : Bytes} {m : Message}
    (h : decodeBody kind b = .ok m) : m.kind = kind := by
  cases kind <;> obtain ⟨_, -, rfl⟩ := map_eq_ok.mp h <;> rfl

/-- What the bytes of an envelope are: its header and the body of its message. -/
theorem of_encode {e : Envelope} {b : Bytes} (h : e.encode = .ok b) :
    ∃ body, encodeBody e.message = .ok body ∧
      encodeHeader e.version e.session e.seq e.message.kind ++ body = b := map_eq_ok.mp h

/-- Whatever follows an envelope, if its bytes are read then its header is read back, and what is
read is of the same kind. -/
theorem header_of_decode {e e' : Envelope} {b : Bytes} (after : Bytes) (hencode : e.encode = .ok b)
    (hdecode : decode (b ++ after) = .ok e') :
    e'.version = e.version ∧ e'.session = e.session ∧ e'.seq = e.seq
      ∧ e'.message.kind = e.message.kind := by
  obtain ⟨body, -, rfl⟩ := of_encode hencode
  rw [decode, List.append_assoc, decodeHeader_encodeHeader] at hdecode
  simp only [mapError_ok, ok_bind, Kind.ofCode?_code] at hdecode
  obtain ⟨m, hm, heq⟩ := bind_eq_ok.mp hdecode
  obtain rfl := Except.ok.inj heq
  exact ⟨rfl, rfl, rfl, kind_of_decodeBody (mapError_eq_ok.mp hm)⟩

/-! ## What can be written -/

end Envelope

namespace Message

/-- The message carries a name, a credential or a description whose length takes more than two
bytes to write. -/
def Oversized : Message → Prop
  | .hello h => 65535 < (Utf8.encode h.identity.name).length
  | .auth (.response credential) => 65535 < credential.length
  | .report r => 65535 < (Utf8.encode r.description).length
  | _ => False

/-- The message is a verdict that names a session without accepting, or accepts without naming
one. -/
def Contradictory : Message → Prop
  | .authResult v => v.accepted ≠ v.session.isSome
  | _ => False

instance (m : Message) : Decidable m.Contradictory := by
  unfold Contradictory
  split <;> infer_instance

end Message

namespace Envelope

private theorem encodeBody_eq_error {m : Message} :
    (∃ d, encodeBody m = .error d) ↔ m.Oversized := by
  cases m with
  | hello h =>
    rw [encodeBody, Message.Oversized, ← encodeField_eq_error]
    simp only [encodeHello]
    cases encodeField "hello name" (Utf8.encode h.identity.name) with
    | ok field => simp
    | error d => exact iff_of_true ⟨d, rfl⟩ ⟨d, rfl⟩
  | auth a =>
    cases a with
    | challenge nonce => simp [encodeBody, encodeAuth, Message.Oversized]
    | response credential =>
      rw [encodeBody, encodeAuth, Message.Oversized, ← encodeField_eq_error]
      cases encodeField "auth credential" credential <;> simp [Except.map]
  | report r =>
    rw [encodeBody, Message.Oversized, ← encodeField_eq_error]
    cases encodeField "error description" (Utf8.encode r.description) <;> simp [Except.map]
  | authResult | heartbeat | heartbeatAck | input | close => simp [encodeBody, Message.Oversized]

theorem encode_eq_error {e : Envelope} : (∃ d, e.encode = .error d) ↔ e.message.Oversized := by
  rw [← encodeBody_eq_error, encode]
  cases encodeBody e.message <;> simp [Except.map]

/-- A body is read back, whatever follows it, unless it is a verdict that contradicts itself. -/
theorem decodeBody_append {m : Message} {body : Bytes} (hencode : encodeBody m = .ok body)
    (after : Bytes) : decodeBody m.kind (body ++ after) =
      if m.Contradictory then .error .verdict else .ok m := by
  cases m with
  | hello h =>
    rw [Message.kind, decodeBody, decodeHello_append hencode]
    rfl
  | auth a =>
    rw [Message.kind, decodeBody, decodeAuth_append hencode]
    rfl
  | authResult v =>
    obtain rfl := Except.ok.inj hencode
    rw [Message.kind, decodeBody, decodeVerdict_append]
    by_cases hhonest : v.accepted = v.session.isSome
    · simp [Message.Contradictory, hhonest, Except.map]
    · simp [Message.Contradictory, hhonest, Except.map]
  | heartbeat token | heartbeatAck token =>
    obtain rfl := Except.ok.inj hencode
    rw [Message.kind, decodeBody, decodeToken_append]
    rfl
  | input e =>
    obtain rfl := Except.ok.inj hencode
    rw [Message.kind, decodeBody, decodeEvent_encodeEvent]
    rfl
  | close reason =>
    obtain rfl := Except.ok.inj hencode
    rw [Message.kind, decodeBody, decodeClose_append]
    rfl
  | report r =>
    obtain ⟨field, hfield, rfl⟩ := map_eq_ok.mp hencode
    rw [Message.kind, decodeBody, decodeReport_append hfield]
    rfl

/-- Whatever follows an envelope, reading its bytes comes down to reading its body. -/
theorem decode_append {e : Envelope} {body : Bytes} (after : Bytes) :
    decode (encodeHeader e.version e.session e.seq e.message.kind ++ body ++ after) =
      ((decodeBody e.message.kind (body ++ after)).mapError .malformed).map
        fun m ↦ { e with message := m } := by
  rw [decode, List.append_assoc, decodeHeader_encodeHeader]
  simp only [mapError_ok, ok_bind, Kind.ofCode?_code, List.drop_left']
  cases decodeBody e.message.kind (body ++ after) <;> rfl

theorem decode_of_encode {e : Envelope} {b : Bytes} (hencode : e.encode = .ok b) (after : Bytes) :
    decode (b ++ after) =
      if e.message.Contradictory then .error (.malformed .verdict) else .ok e := by
  obtain ⟨body, hbody, rfl⟩ := of_encode hencode
  rw [decode_append, decodeBody_append hbody]
  split <;> rfl

/-- An envelope with an input event is read back, whatever follows it. -/
theorem decode_of_input {e : Envelope} {b : Bytes} {event : Event} (after : Bytes)
    (hevent : e.message = .input event) (hencode : e.encode = .ok b) :
    decode (b ++ after) = .ok e := by
  rw [decode_of_encode hencode, hevent]
  rfl

/-- **What is written is read back.** An envelope cannot be written exactly when its message is
oversized. The bytes of one that can be written are read back as that envelope, whatever bytes
follow them, unless it carries a verdict that contradicts itself. Such a verdict can be written, and
is refused by every reader. -/
theorem round_trip (e : Envelope) (after : Bytes) :
    ((∃ d, e.encode = .error d) ↔ e.message.Oversized) ∧
      ∀ b, e.encode = .ok b →
        decode (b ++ after) =
          if e.message.Contradictory then .error (.malformed .verdict) else .ok e :=
  ⟨encode_eq_error, fun _ hencode ↦ decode_of_encode hencode after⟩

/-- A challenge with two more bytes behind it is read back, and a verdict that accepts without
naming a session is not. -/
theorem round_trip_challenge_and_verdict :
    let challenge : Envelope := ⟨1, none, 5, .auth (.challenge .zero)⟩
    let verdict : Envelope := ⟨1, none, 6, .authResult ⟨true, none⟩⟩
    (∃ b, challenge.encode = .ok b ∧ decode (b ++ [9, 9]) = .ok challenge) ∧
      verdict.encode = .ok [1, 3, 0, 0, 0, 0, 6, 1, 0] ∧
      decode ([1, 3, 0, 0, 0, 0, 6, 1, 0] ++ [9, 9]) = .error (.malformed .verdict) := by
  intro challenge verdict
  exact ⟨⟨_, rfl, (round_trip challenge [9, 9]).2 _ rfl⟩, by decide,
    (round_trip verdict [9, 9]).2 _ (by decide)⟩

end Envelope

end DeskLink
