import DeskLink.Proofs.Bytes
import DeskLink.Proofs.Envelope.RoundTrip

/-!
# Only what is written is read

Each kind of field has one spelling, and a reader accepts no other: a flag and a truth value are
zero or one, a code is one of its table, a number takes all the bytes of its width, and a length is
the length of what follows. So whatever a reader accepts begins with the bytes that a writer of the
result puts down, and the rest was ignored.

The one exception is a description that is no text. It is read as a text with replacement
characters in it, and that text has other bytes, and usually more of them (`Garbled`).

As for the way from the writer to the reader, there is one lemma for each kind of field, here about
the place at which it stands (`At`), and bodies and headers are put together from these.
-/

namespace DeskLink

namespace Envelope

/-! ## Where a field stands -/

/-- These bytes stand at this offset. -/
def At (b : Bytes) (offset : Nat) (s : Bytes) : Prop := s <+: b.drop offset

variable {b s t : Bytes} {offset : Nat}

theorem at_zero : At b 0 s ↔ s <+: b := Iff.rfl

@[simp] theorem at_nil : At b offset [] := List.nil_prefix

theorem at_append : At b offset (s ++ t) ↔ At b offset s ∧ At b (offset + s.length) t := by
  unfold At
  constructor
  · rintro ⟨rest, hrest⟩
    refine ⟨⟨t ++ rest, by rw [← hrest, List.append_assoc]⟩, rest, ?_⟩
    rw [← List.drop_drop, ← hrest, List.append_assoc, List.drop_left]
  · rintro ⟨⟨rest, hrest⟩, ht⟩
    rw [← List.drop_drop, ← hrest, List.drop_left] at ht
    rw [← hrest]
    exact List.prefix_append_right_inj s |>.mpr ht

theorem at_cons {x : UInt8} :
    At b offset (x :: s) ↔ (offset < b.length ∧ byteAt b offset = x) ∧ At b (offset + 1) s := by
  unfold At byteAt
  rcases Nat.lt_or_ge offset b.length with hlt | hge
  · rw [List.drop_eq_getElem_cons hlt, List.cons_prefix_cons]
    simp [hlt, eq_comm]
  · rw [List.drop_eq_nil_of_le hge]
    simp [Nat.not_lt.mpr hge]

theorem at_of_slice? {n : Nat} (h : b.slice? offset n = some s) : At b offset s := by
  simp only [Bytes.slice?] at h
  split at h
  · exact Option.some.inj h ▸ List.take_prefix ..
  · cases h

theorem at_of_numberAt {width n : Nat} (h : numberAt b offset width = .ok n) :
    At b offset (Bytes.ofNat width n) ∧ n < 1 <<< (8 * width) := by
  unfold numberAt at h
  split at h
  · rename_i s hs
    obtain rfl := Except.ok.inj h
    have hlength := Bytes.length_of_slice? hs
    subst hlength
    exact ⟨s.ofNat_toNat.symm ▸ at_of_slice? hs, s.toNat_lt⟩
  · cases h

theorem at_of_identifierAt {u : Uuid} (h : identifierAt b offset = .ok u) :
    At b offset u.bytes := by
  unfold identifierAt at h
  split at h
  · rename_i hu
    obtain rfl := Except.ok.inj h
    obtain ⟨s, hs, hbytes⟩ := Option.bind_eq_some_iff.mp hu
    exact Uuid.bytes_of_ofBytes? hbytes ▸ at_of_slice? hs
  · cases h

theorem at_of_fieldAt (h : fieldAt b offset = .ok s) :
    s.length < 65536 ∧ At b offset (Bytes.ofNat 2 s.length ++ s) := by
  unfold fieldAt at h
  split at h
  · cases h
  rename_i size hsize
  split at h
  · rename_i field hfield
    obtain rfl := Except.ok.inj h
    -- The length that is read is the length of what is read behind it.
    have hlength := Bytes.length_of_slice? hfield
    have htwo := Bytes.length_of_slice? hsize
    have hprefix : Bytes.ofNat 2 size.toNat = size := htwo ▸ size.ofNat_toNat
    refine ⟨?_, ?_⟩
    · have hlt := size.toNat_lt
      rw [htwo] at hlt
      exact hlength ▸ hlt
    · rw [hlength, hprefix, at_append, htwo]
      exact ⟨at_of_slice? hsize, at_of_slice? hfield⟩
  · cases h

theorem need_eq_ok {least : Nat} {part : String} (h : need b least part = .ok ()) :
    least ≤ b.length := by
  unfold need at h
  split at h
  · cases h
  · exact Nat.not_lt.mp ‹_›

theorem truthOf_eq_ok {field : String} {x : UInt8} {v : Bool} (h : truthOf field x = .ok v) :
    x = truthCode v := by
  unfold truthOf at h
  split at h
  · obtain rfl := Except.ok.inj h
    assumption
  split at h
  · obtain rfl := Except.ok.inj h
    assumption
  · cases h

/-- In a table that gives each thing by its code, what is found has the code looked for. -/
theorem code_of_find? {α : Type} {all : List α} {code : α → UInt8} {x : UInt8} {a : α}
    (h : all.find? (code · == x) = some a) : x = code a := by
  have hcode : (code a == x) = true := List.find?_some (p := fun a ↦ code a == x) h
  exact (beq_iff_eq.mp hcode).symm

theorem lookUp_eq_ok {α : Type} {all : List α} {code : α → UInt8} {defect : UInt8 → Defect}
    {x : UInt8} {a : α} (h : lookUp (fun x ↦ all.find? (code · == x)) defect x = .ok a) :
    x = code a := by
  unfold lookUp at h
  split at h
  · rename_i hfind
    obtain rfl := Except.ok.inj h
    exact code_of_find? hfind
  · cases h

/-! ## Bodies -/

private theorem encodeHello_of_decode {h : Hello} (hdecode : decodeHello b = .ok h) :
    ∃ c, encodeHello h = .ok c ∧ c <+: b := by
  obtain ⟨⟨⟩, hneed, hdecode⟩ := bind_eq_ok.mp hdecode
  obtain ⟨capabilities, hcapabilities, hdecode⟩ := bind_eq_ok.mp hdecode
  obtain ⟨node, hnode, hdecode⟩ := bind_eq_ok.mp hdecode
  obtain ⟨field, hfield, hdecode⟩ := bind_eq_ok.mp hdecode
  obtain ⟨name, hname, hdecode⟩ := bind_eq_ok.mp hdecode
  obtain rfl := Except.ok.inj hdecode
  obtain rfl := Utf8.decode_eq_ok.mp (mapError_eq_ok.mp hname)
  obtain ⟨hcapabilities, hlt⟩ := at_of_numberAt hcapabilities
  obtain ⟨hfits, hfield⟩ := at_of_fieldAt hfield
  have hlength := need_eq_ok hneed
  have hname : encodeField "hello name" _ = .ok _ := encodeField_eq_ok.mpr ⟨hfits, rfl⟩
  refine ⟨_, by rw [encodeHello, hname]; rfl, at_zero.mp ?_⟩
  simp [at_append, at_cons, UInt32.toNat_ofNat_of_lt' hlt, hcapabilities,
    at_of_identifierAt hnode, hfield]
  omega

private theorem encodeAuth_of_decode {a : Auth} (hdecode : decodeAuth b = .ok a) :
    ∃ c, encodeAuth a = .ok c ∧ c <+: b := by
  obtain ⟨⟨⟩, hneed, hdecode⟩ := bind_eq_ok.mp hdecode
  have hlength := need_eq_ok hneed
  split at hdecode
  · rename_i hkind
    obtain ⟨⟨⟩, hneed, hdecode⟩ := bind_eq_ok.mp hdecode
    split at hdecode
    · rename_i nonce hnonce
      obtain rfl := Except.ok.inj hdecode
      refine ⟨_, rfl, at_zero.mp (at_cons.mpr ⟨⟨hlength, hkind⟩, ?_⟩)⟩
      have hbytes : nonce.bytes = (b.drop 1).take 32 := by
        unfold Nonce.ofBytes? at hnonce
        split at hnonce <;> cases hnonce
        rfl
      exact hbytes ▸ List.take_prefix ..
    · cases hdecode
  split at hdecode
  · rename_i hkind
    obtain ⟨credential, hcredential, hdecode⟩ := bind_eq_ok.mp hdecode
    obtain rfl := Except.ok.inj hdecode
    obtain ⟨hfits, hcredential⟩ := at_of_fieldAt hcredential
    have hfield : encodeField "auth credential" _ = .ok _ := encodeField_eq_ok.mpr ⟨hfits, rfl⟩
    refine ⟨_, by rw [encodeAuth, hfield]; rfl, at_zero.mp ?_⟩
    exact at_cons.mpr ⟨⟨hlength, hkind⟩, hcredential⟩
  · cases hdecode

private theorem session_of_decode {named : Bool} {rest : Option SessionId → Except Defect Verdict}
    {v : Verdict} (hnamed : byteAt b 1 = truthCode named) (hlength : 2 ≤ b.length)
    (hdecode : (if named then (identifierAt b 2).map (some ⟨·⟩) >>= rest else pure none >>= rest)
      = .ok v) :
    ∃ session : Option SessionId, At b 1 (match session with
      | some id => 1 :: id.bytes
      | none => [0]) ∧ rest session = .ok v := by
  cases named with
  | false => exact ⟨none, at_cons.mpr ⟨⟨hlength, hnamed⟩, at_nil⟩, hdecode⟩
  | true =>
    rw [if_pos rfl] at hdecode
    obtain ⟨session, hsession, hdecode⟩ := bind_eq_ok.mp hdecode
    obtain ⟨u, hu, rfl⟩ := map_eq_ok.mp hsession
    exact ⟨some ⟨u⟩, at_cons.mpr ⟨⟨hlength, hnamed⟩, at_of_identifierAt hu⟩, hdecode⟩

private theorem encodeVerdict_of_decode {v : Verdict} (hdecode : decodeVerdict b = .ok v) :
    encodeVerdict v <+: b := by
  obtain ⟨⟨⟩, hneed, hdecode⟩ := bind_eq_ok.mp hdecode
  obtain ⟨accepted, haccepted, hdecode⟩ := bind_eq_ok.mp hdecode
  obtain ⟨named, hnamed, hdecode⟩ := bind_eq_ok.mp hdecode
  have hlength := need_eq_ok hneed
  have haccepted := truthOf_eq_ok haccepted
  obtain ⟨session, hsession, hdecode⟩ := session_of_decode (truthOf_eq_ok hnamed) hlength hdecode
  dsimp only at hdecode
  split at hdecode
  · obtain rfl := Except.ok.inj hdecode
    rw [← at_zero, encodeVerdict, at_cons]
    exact ⟨⟨by omega, haccepted⟩, hsession⟩
  · cases hdecode

private theorem encodeToken_of_decode {token : UInt64} (hdecode : decodeToken b = .ok token) :
    Bytes.ofNat 8 token.toNat <+: b := by
  obtain ⟨n, hn, rfl⟩ := map_eq_ok.mp hdecode
  obtain ⟨hn, hlt⟩ := at_of_numberAt hn
  rw [UInt64.toNat_ofNat_of_lt' hlt]
  exact hn

private theorem encodeEvent_of_decodeKey {e : Event} (hkind : byteAt b 0 = 1)
    (hdecode : decodeKey b = .ok e) : encodeEvent e <+: b := by
  obtain ⟨⟨⟩, hneed, hdecode⟩ := bind_eq_ok.mp hdecode
  obtain ⟨code, hcode, hdecode⟩ := bind_eq_ok.mp hdecode
  obtain ⟨pressed, hpressed, hdecode⟩ := bind_eq_ok.mp hdecode
  obtain ⟨time, htime, hdecode⟩ := bind_eq_ok.mp hdecode
  obtain rfl := Except.ok.inj hdecode
  obtain ⟨hcode, hcodelt⟩ := at_of_numberAt hcode
  obtain ⟨htime, htimelt⟩ := at_of_numberAt htime
  have hlength := need_eq_ok hneed
  have hpressed := truthOf_eq_ok hpressed
  rw [← at_zero, encodeEvent]
  simp [at_append, at_cons, UInt16.toNat_ofNat_of_lt' hcodelt, UInt64.toNat_ofNat_of_lt' htimelt,
    hkind, hcode, hpressed, htime]
  omega

private theorem button_of_decode {rest : Option MouseButton → Except Defect Event} {e : Event}
    (hdecode : (if byteAt b 9 = 0 then pure none >>= rest
      else (lookUp MouseButton.ofCode? .mouseButton (byteAt b 9)).map some >>= rest) = .ok e) :
    ∃ button, byteAt b 9 = (button.map MouseButton.code).getD 0 ∧ rest button = .ok e := by
  split at hdecode
  · exact ⟨none, ‹_›, hdecode⟩
  · obtain ⟨button, hbutton, hdecode⟩ := bind_eq_ok.mp hdecode
    obtain ⟨known, hknown, rfl⟩ := map_eq_ok.mp hbutton
    have hcode : byteAt b 9 = known.code := lookUp_eq_ok hknown
    exact ⟨some known, hcode, hdecode⟩

private theorem encodeEvent_of_decodeMouse {e : Event} (hkind : byteAt b 0 = 2)
    (hdecode : decodeMouse b = .ok e) : encodeEvent e <+: b := by
  obtain ⟨⟨⟩, hneed, hdecode⟩ := bind_eq_ok.mp hdecode
  obtain ⟨button, hcode, hdecode⟩ := button_of_decode hdecode
  obtain ⟨x, hx, hdecode⟩ := bind_eq_ok.mp hdecode
  obtain ⟨y, hy, hdecode⟩ := bind_eq_ok.mp hdecode
  obtain ⟨pressed, hpressed, hdecode⟩ := bind_eq_ok.mp hdecode
  obtain ⟨wheel, hwheel, hdecode⟩ := bind_eq_ok.mp hdecode
  obtain ⟨time, htime, hdecode⟩ := bind_eq_ok.mp hdecode
  obtain rfl := Except.ok.inj hdecode
  obtain ⟨hx, hxlt⟩ := at_of_numberAt hx
  obtain ⟨hy, hylt⟩ := at_of_numberAt hy
  obtain ⟨hwheel, hwheellt⟩ := at_of_numberAt hwheel
  obtain ⟨htime, htimelt⟩ := at_of_numberAt htime
  have hlength := need_eq_ok hneed
  have hpressed := truthOf_eq_ok hpressed
  rw [← at_zero, encodeEvent]
  simp [at_append, at_cons, UInt32.toNat_ofNat_of_lt' hxlt, UInt32.toNat_ofNat_of_lt' hylt,
    UInt16.toNat_ofNat_of_lt' hwheellt, UInt64.toNat_ofNat_of_lt' htimelt, hkind, hx, hy, hcode,
    hpressed, hwheel, htime]
  omega

private theorem encodeEvent_of_decode {e : Event} (hdecode : decodeEvent b = .ok e) :
    encodeEvent e <+: b := by
  obtain ⟨⟨⟩, hneed, hdecode⟩ := bind_eq_ok.mp hdecode
  split at hdecode
  · exact encodeEvent_of_decodeKey ‹_› hdecode
  split at hdecode
  · exact encodeEvent_of_decodeMouse ‹_› hdecode
  · cases hdecode

private theorem encodeClose_of_decode {reason : CloseReason}
    (hdecode : decodeClose b = .ok reason) : [reason.code] <+: b := by
  obtain ⟨⟨⟩, hneed, hdecode⟩ := bind_eq_ok.mp hdecode
  exact at_zero.mp (at_cons.mpr ⟨⟨need_eq_ok hneed, lookUp_eq_ok hdecode⟩, at_nil⟩)

/-- A report stands there with the bytes of its description, text or not. -/
theorem of_decodeReport {r : Report} (hdecode : decodeReport b = .ok r) :
    ∃ text, fieldAt b 1 = .ok text ∧ r.description = Utf8.decodeLossy text ∧ text.length < 65536 ∧
      r.code.code :: (Bytes.ofNat 2 text.length ++ text) <+: b := by
  obtain ⟨⟨⟩, hneed, hdecode⟩ := bind_eq_ok.mp hdecode
  obtain ⟨code, hcode, hdecode⟩ := bind_eq_ok.mp hdecode
  obtain ⟨text, htext, hdecode⟩ := bind_eq_ok.mp hdecode
  obtain rfl := Except.ok.inj hdecode
  obtain ⟨hfits, hat⟩ := at_of_fieldAt htext
  have hlength := need_eq_ok hneed
  exact ⟨text, htext, rfl, hfits,
    at_zero.mp (at_cons.mpr ⟨⟨by omega, lookUp_eq_ok hcode⟩, hat⟩)⟩

/-- The bytes that are accepted as a body are those of the message, unless it is a report whose
description is no text. -/
theorem encodeBody_of_decode {kind : Kind} {m : Message} (hdecode : decodeBody kind b = .ok m) :
    (∃ c, encodeBody m = .ok c ∧ c <+: b) ∨
      kind = .report ∧ ∃ text, fieldAt b 1 = .ok text ∧ Utf8.text? text = none := by
  cases kind with
  | hello =>
    obtain ⟨h, hbody, rfl⟩ := map_eq_ok.mp hdecode
    exact .inl (encodeHello_of_decode hbody)
  | auth =>
    obtain ⟨a, hbody, rfl⟩ := map_eq_ok.mp hdecode
    exact .inl (encodeAuth_of_decode hbody)
  | authResult =>
    obtain ⟨v, hbody, rfl⟩ := map_eq_ok.mp hdecode
    exact .inl ⟨_, rfl, encodeVerdict_of_decode hbody⟩
  | heartbeat | heartbeatAck =>
    obtain ⟨token, hbody, rfl⟩ := map_eq_ok.mp hdecode
    exact .inl ⟨_, rfl, encodeToken_of_decode hbody⟩
  | input =>
    obtain ⟨e, hbody, rfl⟩ := map_eq_ok.mp hdecode
    exact .inl ⟨_, rfl, encodeEvent_of_decode hbody⟩
  | close =>
    obtain ⟨reason, hbody, rfl⟩ := map_eq_ok.mp hdecode
    exact .inl ⟨_, rfl, encodeClose_of_decode hbody⟩
  | report =>
    obtain ⟨r, hbody, rfl⟩ := map_eq_ok.mp hdecode
    obtain ⟨text, htext, hdescription, hfits, hprefix⟩ := of_decodeReport hbody
    cases hvalid : Utf8.text? text with
    | none => exact .inr ⟨rfl, text, htext, hvalid⟩
    | some s =>
      have hbytes : Utf8.encode r.description = text := by
        rw [hdescription, Utf8.encode_decodeLossy (by simp [hvalid])]
      have hfield : encodeField "error description" (Utf8.encode r.description) = .ok _ :=
        encodeField_eq_ok.mpr ⟨hbytes.symm ▸ hfits, rfl⟩
      refine .inl ⟨_, by rw [encodeBody, hfield]; rfl, ?_⟩
      rw [hbytes]
      exact hprefix

/-! ## Headers -/

theorem encodeHeader_of_decode {header : Header} {kind : Kind}
    (hdecode : decodeHeader b = .ok header) (hkind : Kind.ofCode? header.code = some kind) :
    encodeHeader header.version header.session header.seq kind <+: b ∧
      (encodeHeader header.version header.session header.seq kind).length = header.length := by
  obtain ⟨⟨⟩, hneed, hdecode⟩ := bind_eq_ok.mp hdecode
  have hlength := need_eq_ok hneed
  by_cases hflag : byteAt b 2 = sessionFlag
  · have hknown : ¬(sessionFlag ≠ 0 ∧ sessionFlag ≠ sessionFlag) := by decide
    simp only [hflag, if_neg hknown, if_true] at hdecode
    obtain ⟨session, hsession, hdecode⟩ := bind_eq_ok.mp hdecode
    obtain ⟨u, hu, rfl⟩ := map_eq_ok.mp hsession
    obtain ⟨seq, hseq, hdecode⟩ := bind_eq_ok.mp hdecode
    obtain rfl := Except.ok.inj hdecode
    obtain ⟨hseq, hlt⟩ := at_of_numberAt hseq
    have hcode : byteAt b 1 = kind.code := code_of_find? hkind
    refine ⟨at_zero.mp ?_, length_encodeHeader ..⟩
    simp [encodeHeader, at_append, at_cons, hflag, hcode, SessionId.bytes,
      UInt32.toNat_ofNat_of_lt' hlt, at_of_identifierAt hu, hseq]
    omega
  · simp only [hflag, if_false] at hdecode
    split at hdecode
    · cases hdecode
    rename_i hknown
    have hzero : byteAt b 2 = 0 := by simpa [hflag] using hknown
    obtain ⟨session, hsession, hdecode⟩ := bind_eq_ok.mp hdecode
    obtain rfl := Except.ok.inj hsession
    obtain ⟨seq, hseq, hdecode⟩ := bind_eq_ok.mp hdecode
    obtain rfl := Except.ok.inj hdecode
    obtain ⟨hseq, hlt⟩ := at_of_numberAt hseq
    have hcode : byteAt b 1 = kind.code := code_of_find? hkind
    refine ⟨at_zero.mp ?_, length_encodeHeader ..⟩
    simp [encodeHeader, at_cons, hzero, hcode, UInt32.toNat_ofNat_of_lt' hlt, hseq]
    omega

/-! ## Whole envelopes -/

/-- These are the bytes of a report, and these the bytes of its description, which are no text. -/
def Garbled (b text : Bytes) : Prop :=
  Utf8.text? text = none ∧ ∃ header, decodeHeader b = .ok header ∧
    header.code = Kind.report.code ∧ fieldAt (b.drop header.length) 1 = .ok text

/-- What the bytes of an accepted envelope are: a header and, behind it, a body of its kind. -/
theorem of_decode {e : Envelope} (hdecode : decode b = .ok e) :
    ∃ header kind, decodeHeader b = .ok header ∧ Kind.ofCode? header.code = some kind ∧
      decodeBody kind (b.drop header.length) = .ok e.message ∧
      e = ⟨header.version, header.session, header.seq, e.message⟩ := by
  obtain ⟨header, hheader, hdecode⟩ := bind_eq_ok.mp hdecode
  split at hdecode
  · cases hdecode
  · rename_i kind hkind
    obtain ⟨m, hm, hdecode⟩ := bind_eq_ok.mp hdecode
    obtain rfl := Except.ok.inj hdecode
    exact ⟨header, kind, mapError_eq_ok.mp hheader, hkind, mapError_eq_ok.mp hm, rfl⟩

theorem encode_of_decode {e : Envelope} (hdecode : decode b = .ok e)
    (hclear : ∀ text, ¬Garbled b text) : ∃ c, e.encode = .ok c ∧ c <+: b := by
  obtain ⟨header, kind, hheader, hkind, hbody, heq⟩ := of_decode hdecode
  obtain ⟨hat, hlength⟩ := encodeHeader_of_decode hheader hkind
  rcases encodeBody_of_decode hbody with ⟨c, hc, hprefix⟩ | ⟨rfl, text, htext, hinvalid⟩
  · refine ⟨encodeHeader header.version header.session header.seq kind ++ c, ?_, ?_⟩
    · rw [heq, encode, hc, kind_of_decodeBody hbody]
      rfl
    · rw [← at_zero, at_append, Nat.zero_add, hlength]
      exact ⟨hat, hprefix⟩
  · exact absurd ⟨hinvalid, header, hheader, code_of_find? hkind, htext⟩ (hclear text)

/-- What is accepted does not contradict itself, so that what follows it does not matter. -/
theorem decode_of_decode {e : Envelope} {c rest : Bytes} (hencode : e.encode = .ok c)
    (hdecode : decode (c ++ rest) = .ok e) (after : Bytes) : decode (c ++ after) = .ok e := by
  rw [decode_of_encode hencode] at hdecode ⊢
  split at hdecode
  · cases hdecode
  · rw [if_neg ‹_›]

private theorem report_of_garbled {e : Envelope} {text : Bytes} (hdecode : decode b = .ok e)
    (hgarbled : Garbled b text) :
    ∃ r, e.message = .report r ∧ r.description = Utf8.decodeLossy text := by
  obtain ⟨-, header, hheader, hcode, htext⟩ := hgarbled
  obtain ⟨header', kind, hheader', hkind, hbody, -⟩ := of_decode hdecode
  obtain rfl := Except.ok.inj (hheader.symm.trans hheader')
  obtain rfl : Kind.report = kind := by
    rw [hcode, Kind.ofCode?_code] at hkind
    exact Option.some.inj hkind
  obtain ⟨r, hr, hmessage⟩ := map_eq_ok.mp hbody
  obtain ⟨text', htext', hdescription, -⟩ := of_decodeReport hr
  obtain rfl := Except.ok.inj (htext.symm.trans htext')
  exact ⟨r, hmessage.symm, hdescription⟩

/-- **Only what is written is read.** Bytes that are accepted begin with the bytes of what is read,
and what follows those is ignored; no other bytes mean the same envelope. This is so unless they
are a report whose description is no text. The description is then read with replacements in it,
which may be too long to be written, and otherwise is written so that it is read back. -/
theorem canonical {e : Envelope} (hdecode : decode b = .ok e) :
    ((∀ text, ¬Garbled b text) →
      ∃ c, e.encode = .ok c ∧ c <+: b ∧ (∀ after, decode (c ++ after) = .ok e) ∧
        ∀ b', decode b' = .ok e → (∀ text, ¬Garbled b' text) → c <+: b') ∧
    ∀ text, Garbled b text →
      (∃ r, e.message = .report r ∧ r.description = Utf8.decodeLossy text) ∧
      ((∃ d, e.encode = .error d) ↔ 65535 < (Utf8.encode (Utf8.decodeLossy text)).length) ∧
      ∀ c, e.encode = .ok c → decode c = .ok e := by
  refine ⟨fun hclear ↦ ?_, fun text hgarbled ↦ ?_⟩
  · obtain ⟨c, hc, rest, rfl⟩ := encode_of_decode hdecode hclear
    refine ⟨c, hc, List.prefix_append .., decode_of_decode hc hdecode, fun b' hdecode' hclear' ↦ ?_⟩
    obtain ⟨c', hc', hprefix⟩ := encode_of_decode hdecode' hclear'
    exact Except.ok.inj (hc.symm.trans hc') ▸ hprefix
  · obtain ⟨r, hr, hdescription⟩ := report_of_garbled hdecode hgarbled
    refine ⟨⟨r, hr, hdescription⟩, ?_, fun c hc ↦ ?_⟩
    · rw [encode_eq_error, hr, Message.Oversized, hdescription]
    · have hread := decode_of_encode hc []
      rwa [List.append_nil, hr] at hread

/-- A close notice with a byte behind it is its own bytes and that byte. A report with a description
of one byte that is no text is read with a replacement, and with that it is read back. -/
theorem canonical_close_and_garbled :
    let close : Envelope := ⟨1, none, 5, .close .userInitiated⟩
    let report : Envelope := ⟨1, none, 6, .report ⟨.versionMismatch, Utf8.decodeLossy [0xff]⟩⟩
    (decode [1, 6, 0, 0, 0, 0, 5, 1, 9] = .ok close ∧
      ∃ c, close.encode = .ok c ∧ c <+: [1, 6, 0, 0, 0, 0, 5, 1, 9]) ∧
    decode [1, 7, 0, 0, 0, 0, 6, 1, 0, 1, 0xff] = .ok report ∧
      Garbled [1, 7, 0, 0, 0, 0, 6, 1, 0, 1, 0xff] [0xff] ∧
      ∀ c, report.encode = .ok c → decode c = .ok report := by
  intro close report
  have hclose : decode [1, 6, 0, 0, 0, 0, 5, 1, 9] = .ok close := rfl
  have hclear (text : Bytes) : ¬Garbled [1, 6, 0, 0, 0, 0, 5, 1, 9] text := by
    rintro ⟨-, header, hheader, hcode, -⟩
    have hknown : Except.ok ⟨1, 6, none, 5, 7⟩ = Except.ok header := hheader
    rw [← Except.ok.inj hknown] at hcode
    exact absurd hcode (by decide)
  obtain ⟨c, hc, hprefix, -⟩ := (canonical hclose).1 hclear
  have hreport : decode [1, 7, 0, 0, 0, 0, 6, 1, 0, 1, 0xff] = .ok report := rfl
  have hgarbled : Garbled [1, 7, 0, 0, 0, 0, 6, 1, 0, 1, 0xff] [0xff] :=
    ⟨by decide, ⟨1, 7, none, 6, 7⟩, by decide⟩
  exact ⟨⟨hclose, c, hc, hprefix⟩, hreport, hgarbled, ((canonical hreport).2 _ hgarbled).2.2⟩

end Envelope

end DeskLink
