import DeskLink.Proofs.Envelope.Canonical

/-!
# What is refused, and as what

A reader of the wire skips an envelope whose kind is unassigned and gives up the session over one
that is malformed, so the two must not be confused. Which of them it is depends on the header
alone: the kind is looked at only when the header is complete (`Headed`), and a body can only be
malformed.

## Cut off anywhere

An envelope that is cut off anywhere is malformed. It is not taken for one of an unassigned kind,
since as much of the header as is left is that of the whole. Nor is it read, for what is read
begins with the bytes of its result; that would be a whole envelope within the one that was cut,
and the two read the same. A report is the case apart, because it is read even when its description
is no text: the description that is cut off would then be the whole one, which is a text.
-/

namespace DeskLink

namespace Envelope

variable {b p rest : Bytes} {offset : Nat}

/-! ## Complete headers -/

/-- The bytes hold a whole header, and its flags are known. -/
structure Headed (b : Bytes) : Prop where
  least : 7 ≤ b.length
  flags : byteAt b 2 = 0 ∨ byteAt b 2 = 1
  named : byteAt b 2 = 1 → 23 ≤ b.length

theorem slice?_of_le {n : Nat} (h : offset + n ≤ b.length) :
    b.slice? offset n = some ((b.drop offset).take n) := by
  rw [Bytes.slice?, if_pos]
  simp
  omega

theorem numberAt_of_le {width : Nat} (h : offset + width ≤ b.length) :
    numberAt b offset width = .ok (Bytes.toNat ((b.drop offset).take width)) := by
  rw [numberAt, slice?_of_le h]

private theorem identifierAt_of_le (h : offset + 16 ≤ b.length) :
    ∃ u, identifierAt b offset = .ok u := by
  have hlength : ((b.drop offset).take 16).length = 16 := by
    simp
    omega
  exact ⟨⟨_, hlength⟩, by simp [identifierAt, slice?_of_le h, Uuid.ofBytes?, hlength]⟩

theorem le_of_at {s : Bytes} (h : At b offset s) (hs : s ≠ []) :
    offset + s.length ≤ b.length := by
  have hlength := h.length_le
  have hpos := List.length_pos_iff.mpr hs
  rw [List.length_drop] at hlength
  omega

private theorem le_of_numberAt {width n : Nat} (h : numberAt b offset width = .ok n)
    (hwidth : 0 < width) : offset + width ≤ b.length := by
  have hlength := Bytes.length_ofNat width n
  have hle := le_of_at (at_of_numberAt h).1 (List.length_pos_iff.mp (by omega))
  omega

theorem headed_of_decodeHeader {header : Header} (h : decodeHeader b = .ok header) :
    Headed b ∧ header.code = byteAt b 1 := by
  obtain ⟨⟨⟩, hneed, h⟩ := bind_eq_ok.mp h
  have hleast := need_eq_ok hneed
  by_cases hflag : byteAt b 2 = sessionFlag
  · have hknown : ¬(sessionFlag ≠ 0 ∧ sessionFlag ≠ sessionFlag) := by decide
    simp only [hflag, if_neg hknown, if_true] at h
    obtain ⟨session, -, h⟩ := bind_eq_ok.mp h
    obtain ⟨seq, hseq, h⟩ := bind_eq_ok.mp h
    obtain rfl := Except.ok.inj h
    exact ⟨⟨hleast, .inr hflag, fun _ ↦ le_of_numberAt hseq (by decide)⟩, rfl⟩
  · simp only [hflag, if_false] at h
    split at h
    · cases h
    rename_i hknown
    have hzero : byteAt b 2 = 0 := by simpa [hflag] using hknown
    obtain ⟨session, -, h⟩ := bind_eq_ok.mp h
    obtain ⟨seq, -, h⟩ := bind_eq_ok.mp h
    obtain rfl := Except.ok.inj h
    exact ⟨⟨hleast, .inl hzero, fun hnamed ↦ absurd hnamed hflag⟩, rfl⟩

theorem Headed.decodeHeader (h : Headed b) :
    ∃ header, decodeHeader b = .ok header ∧ header.code = byteAt b 1 := by
  suffices hread : ∃ header, Envelope.decodeHeader b = .ok header by
    obtain ⟨header, hheader⟩ := hread
    exact ⟨header, hheader, (headed_of_decodeHeader hheader).2⟩
  rw [Envelope.decodeHeader, need_of_le _ h.least]
  rcases h.flags with hflag | hflag
  · have hseq : numberAt b 3 4 = .ok _ := numberAt_of_le h.least
    simp [hflag, sessionFlag, hseq]
  · have hlength := h.named hflag
    have hid : ∃ u, identifierAt b 3 = .ok u := identifierAt_of_le (by omega)
    have hseq : numberAt b 19 4 = .ok _ := numberAt_of_le hlength
    obtain ⟨u, hu⟩ := hid
    simp [hflag, sessionFlag, hu, hseq, Except.map]

private theorem ofCode?_eq_none {t : UInt8} :
    Kind.ofCode? t = none ↔ ∀ kind : Kind, kind.code ≠ t := by
  rw [Kind.ofCode?, List.find?_eq_none]
  constructor
  · intro h kind hcode
    exact h kind (by cases kind <;> decide) (beq_iff_eq.mpr hcode)
  · intro h kind _ hcode
    exact h kind (beq_iff_eq.mp hcode)

/-- An envelope is of an unknown kind when its header is complete and says so. -/
theorem decode_eq_unknownKind {t : UInt8} : decode b = .error (.unknownKind t) ↔
    Headed b ∧ byteAt b 1 = t ∧ ∀ kind : Kind, kind.code ≠ t := by
  rw [← ofCode?_eq_none]
  constructor
  · intro h
    cases hheader : decodeHeader b with
    | error d => simp [decode, hheader] at h
    | ok header =>
      obtain ⟨hheaded, hcode⟩ := headed_of_decodeHeader hheader
      cases hkind : Kind.ofCode? header.code with
      | none =>
        simp only [decode, hheader, mapError_ok, ok_bind, hkind] at h
        obtain rfl := DecodeError.unknownKind.inj (Except.error.inj h)
        exact ⟨hheaded, hcode.symm, hkind⟩
      | some kind =>
        cases hbody : decodeBody kind (b.drop header.length) <;>
          simp [decode, hheader, hkind, hbody] at h
  · rintro ⟨hheaded, rfl, hunassigned⟩
    obtain ⟨header, hheader, hcode⟩ := hheaded.decodeHeader
    simp only [decode, hheader, mapError_ok, ok_bind, hcode, hunassigned]
    rfl

/-! ## Cut off -/

theorem At.append {s : Bytes} (h : At b offset s) (rest : Bytes) : At (b ++ rest) offset s := by
  rw [At, List.drop_append]
  exact h.trans (List.prefix_append _ _)

private theorem fieldAt_of_at {s : Bytes} (hfits : s.length < 65536)
    (h : At b offset (Bytes.ofNat 2 s.length ++ s)) : fieldAt b offset = .ok s := by
  have hle := le_of_at h (by simp [Bytes.ofNat])
  rw [List.length_append, Bytes.length_ofNat] at hle
  obtain ⟨after, hafter⟩ := h
  rw [← List.take_append_drop offset b, ← hafter, List.append_assoc]
  exact fieldAt_append _ after (by simp; omega) hfits

private theorem fieldAt_append_right {s : Bytes} (h : fieldAt b offset = .ok s) (rest : Bytes) :
    fieldAt (b ++ rest) offset = .ok s := by
  obtain ⟨hfits, hat⟩ := at_of_fieldAt h
  exact fieldAt_of_at hfits (hat.append rest)

/-- The header of an envelope of a known kind stays what it is when bytes are added. -/
theorem decodeHeader_append_right {header : Header} {kind : Kind} (h : decodeHeader b = .ok header)
    (hkind : Kind.ofCode? header.code = some kind) (rest : Bytes) :
    decodeHeader (b ++ rest) = .ok header := by
  obtain ⟨⟨body, rfl⟩, hlength⟩ := encodeHeader_of_decode h hkind
  rw [List.append_assoc, decodeHeader_encodeHeader, hlength, ← code_of_find? hkind]

private theorem byteAt_append_of_lt (h : offset < b.length) (rest : Bytes) :
    byteAt (b ++ rest) offset = byteAt b offset := by
  rw [byteAt, byteAt, List.getD_eq_getElem?_getD, List.getElem?_append_left h,
    List.getD_eq_getElem?_getD]

variable {e e' : Envelope} {c c' : Bytes}

theorem decodeHeader_of_encode (h : e.encode = .ok c) (rest : Bytes) : ∃ length,
    decodeHeader (c ++ rest) = .ok ⟨e.version, e.message.kind.code, e.session, e.seq, length⟩ ∧
      ∃ body, encodeBody e.message = .ok body ∧ (c ++ rest).drop length = body ++ rest := by
  obtain ⟨body, hbody, rfl⟩ := of_encode h
  rw [List.append_assoc, decodeHeader_encodeHeader]
  exact ⟨_, rfl, body, hbody, List.drop_left⟩

private theorem fieldAt_of_report {r : Report} {body : Bytes}
    (h : encodeBody (.report r) = .ok body) : fieldAt body 1 = .ok (Utf8.encode r.description) := by
  obtain ⟨field, hfield, rfl⟩ := map_eq_ok.mp h
  obtain ⟨hfits, rfl⟩ := encodeField_eq_ok.mp hfield
  simpa using fieldAt_append [r.code.code] [] rfl hfits

theorem kind_of_code {kind kind' : Kind} (h : kind.code = kind'.code) : kind = kind' := by
  have hcode := Kind.ofCode?_code kind
  rw [h, Kind.ofCode?_code] at hcode
  exact (Option.some.inj hcode).symm

/-- No part of an envelope looks like one of an unknown kind. -/
theorem decode_ne_unknownKind (hencode : e.encode = .ok (b ++ rest)) (t : UInt8) :
    decode b ≠ .error (.unknownKind t) := by
  intro h
  obtain ⟨hheaded, rfl, hunassigned⟩ := decode_eq_unknownKind.mp h
  obtain ⟨length, hheader, -⟩ := decodeHeader_of_encode hencode []
  rw [List.append_nil] at hheader
  have hleast := hheaded.least
  have hcode := (headed_of_decodeHeader hheader).2
  rw [byteAt_append_of_lt (by omega)] at hcode
  exact hunassigned _ hcode

/-- No part of an envelope is a report whose description is no text: the description would be the
whole one. -/
theorem not_garbled_of_encode (hencode : e.encode = .ok (b ++ rest)) (text : Bytes) :
    ¬Garbled b text := by
  rintro ⟨hinvalid, header, hheader, hcode, htext⟩
  obtain ⟨length, hwhole, body, hbody, hdrop⟩ := decodeHeader_of_encode hencode []
  have hsame := decodeHeader_append_right hheader (hcode ▸ Kind.ofCode?_code .report) rest
  rw [List.append_nil] at hwhole hdrop
  obtain rfl := Except.ok.inj (hsame.symm.trans hwhole)
  have hkind : e.message.kind = .report := kind_of_code hcode
  rw [List.append_nil, List.drop_append] at hdrop
  have hfield := fieldAt_append_right htext (rest.drop (length - b.length))
  rw [hdrop] at hfield
  cases hmessage : e.message with
  | report r =>
    rw [hmessage] at hbody
    rw [fieldAt_of_report hbody] at hfield
    rw [← Except.ok.inj hfield, Utf8.text?_encode] at hinvalid
    nomatch hinvalid
  | _ =>
    rw [hmessage] at hkind
    nomatch hkind

private theorem decode_ne_ok (hencode : e.encode = .ok (b ++ rest)) (hrest : rest ≠ []) :
    decode b ≠ .ok e' := by
  intro h
  -- The bytes of what is read are at the beginning, and so they are read whatever follows them.
  obtain ⟨c, hc, after, rfl⟩ := encode_of_decode h (not_garbled_of_encode hencode)
  have hread := decode_of_decode hc h (after ++ rest)
  rw [← List.append_assoc] at hread
  have hwhole := decode_of_encode hencode []
  rw [List.append_nil, hread] at hwhole
  split at hwhole
  · cases hwhole
  · obtain rfl := Except.ok.inj hwhole
    have hsame := Except.ok.inj (hc.symm.trans hencode)
    rw [List.append_assoc] at hsame
    exact hrest (List.append_eq_nil_iff.mp (List.self_eq_append_right.mp hsame)).2

theorem malformed_of_part (hencode : e.encode = .ok c) (hpart : b <+: c) (hne : b ≠ c) :
    ∃ d, decode b = .error (.malformed d) := by
  obtain ⟨rest, rfl⟩ := hpart
  cases h : decode b with
  | error err =>
    cases err with
    | malformed d => exact ⟨d, rfl⟩
    | unknownKind t => exact absurd h (decode_ne_unknownKind hencode t)
  | ok e' => exact absurd h (decode_ne_ok hencode (by rintro rfl; simp at hne))

/-! ## No envelope within another -/

private theorem eq_nil_of_encodeVerdict {v v' : Verdict}
    (h : encodeVerdict v ++ rest = encodeVerdict v') : rest = [] := by
  obtain ⟨accepted, session⟩ := v
  obtain ⟨accepted', session'⟩ := v'
  cases session <;> cases session' <;> simp [encodeVerdict] at h
  · exact h.2
  · -- Both name a session, so they are of one length.
    have hlength := congrArg List.length h.2
    simpa using hlength

/-- A verdict that contradicts itself is not read, but its header and its flag say how long it is.
-/
theorem eq_nil_of_contradictory (hencode : e.encode = .ok c)
    (hencode' : e'.encode = .ok (c ++ rest)) (hcontradictory : e.message.Contradictory) :
    rest = [] := by
  obtain ⟨length, hheader, body, hbody, hdrop⟩ := decodeHeader_of_encode hencode rest
  obtain ⟨length', hheader', body', hbody', hdrop'⟩ := decodeHeader_of_encode hencode' []
  rw [List.append_nil] at hheader' hdrop'
  have hsame := Except.ok.inj (hheader.symm.trans hheader')
  obtain rfl : length = length' := congrArg Header.length hsame
  have hkind : e.message.kind = e'.message.kind := kind_of_code (congrArg Header.code hsame)
  rw [List.append_nil, hdrop] at hdrop'
  obtain ⟨version, session, seq, message⟩ := e
  obtain ⟨version', session', seq', message'⟩ := e'
  cases message with
  | authResult v =>
    cases message' with
    | authResult v' =>
      obtain rfl := Except.ok.inj hbody
      obtain rfl := Except.ok.inj hbody'
      exact eq_nil_of_encodeVerdict hdrop'
    | _ => nomatch hkind
  | _ => exact hcontradictory.elim

private theorem eq_of_part (hencode : e.encode = .ok c) (hencode' : e'.encode = .ok c')
    (hpart : c <+: c') : c = c' := by
  by_contra hne
  obtain ⟨d, hd⟩ := malformed_of_part hencode' hpart hne
  have hread := decode_of_encode hencode []
  rw [List.append_nil, hd] at hread
  split at hread
  · obtain ⟨rest, rfl⟩ := hpart
    exact hne (by rw [eq_nil_of_contradictory hencode hencode' ‹_›, List.append_nil])
  · cases hread

/-- **What is refused, and as what.** An envelope is of an unknown kind exactly when its header is
complete and its code is unassigned, whatever follows; anything else that is refused is malformed.
If the bytes are only a part of an envelope, from its beginning, they are malformed; so when they
are themselves an envelope, there is none that they are a part of. -/
theorem refusals (b : Bytes) :
    (∀ t, decode b = .error (.unknownKind t) ↔
      Headed b ∧ byteAt b 1 = t ∧ ∀ kind : Kind, kind.code ≠ t) ∧
    (∀ err, decode b = .error err → ¬(Headed b ∧ ∀ kind : Kind, kind.code ≠ byteAt b 1) →
      ∃ d, err = .malformed d) ∧
    (∀ (e : Envelope) c, e.encode = .ok c → b <+: c → b ≠ c →
      ∃ d, decode b = .error (.malformed d)) ∧
    ∀ (e e' : Envelope) c, e.encode = .ok b → e'.encode = .ok c → b <+: c → b = c := by
  refine ⟨fun t ↦ decode_eq_unknownKind, fun err herr hknown ↦ ?_,
    fun e c ↦ malformed_of_part, fun e e' c ↦ eq_of_part⟩
  cases err with
  | malformed d => exact ⟨d, rfl⟩
  | unknownKind t =>
    obtain ⟨hheaded, rfl, hunassigned⟩ := decode_eq_unknownKind.mp herr
    exact absurd ⟨hheaded, hunassigned⟩ hknown

/-- A header of kind nine is skipped, and refused when it lacks its session. A report is refused
when it lacks half of the last character of its description. -/
theorem refusals_of_parts :
    let report : Envelope := ⟨1, none, 6, .report ⟨.versionMismatch, "é"⟩⟩
    decode [1, 9, 0, 0, 0, 0, 5] = .error (.unknownKind 9) ∧
      (∃ d, decode [1, 9, 1, 0, 0, 0, 5] = .error (.malformed d)) ∧
      report.encode = .ok [1, 7, 0, 0, 0, 0, 6, 1, 0, 2, 0xc3, 0xa9] ∧
      ∃ d, decode [1, 7, 0, 0, 0, 0, 6, 1, 0, 2, 0xc3] = .error (.malformed d) := by
  intro report
  have hreport : report.encode = .ok [1, 7, 0, 0, 0, 0, 6, 1, 0, 2, 0xc3, 0xa9] := by
    decide +kernel
  have hunknown : decode [1, 9, 0, 0, 0, 0, 5] = .error (.unknownKind 9) :=
    ((refusals _).1 9).mpr ⟨⟨by decide, .inl rfl, by decide⟩, rfl,
      fun kind ↦ by cases kind <;> decide⟩
  have hshort : decode [1, 9, 1, 0, 0, 0, 5] = .error (.malformed (.noIdentifier 3 4)) := by
    decide +kernel
  exact ⟨hunknown, ⟨_, hshort⟩, hreport,
    (refusals _).2.2.1 report _ hreport ⟨[0xa9], rfl⟩ (by decide)⟩

end Envelope

end DeskLink
