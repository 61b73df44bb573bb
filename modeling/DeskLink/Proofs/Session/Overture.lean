import DeskLink.Proofs.Handshake.Course
import DeskLink.Proofs.Session.Pair

/-!
# What a handshake leaves to its session

A session begins with the links of a handshake at whose end both sides were told that it is up. They
are bound to the same session, each has read all that the other one has sent, and neither has
accepted a number that the other one has not given out: they are `Established` in both directions.

What one side has heard is part of what it has taken out of its stream, and that is part of what the
other one has said. When both are done, each has heard as many messages as the other one has said,
so nothing is left over, and the name of the session that the client has heard is the one that the
server has said. How the bytes arrived does not matter.
-/

namespace DeskLink.Handshake

open Session (Letter Established)

/-! ## One direction -/

/-- What this side has said is in the letters that the other one has taken out of its stream, from
which it has heard this much, and then in those that are left. These are what the other side has
read, what is on the wire and what is about to be written. -/
structure Conveys (c : Conduct) (wire : Bytes) (l : Link) (heard : List Message)
    (taken left : List Letter) : Prop where
  stream_eq : l.reader.buffered ++ wire ++ c.unsent = Frame.stream (left.map (·.body))
  honest : ∀ x ∈ left, ¬ x.envelope.message.Contradictory
  counted : ∀ x ∈ left, x.envelope.seq ≤ c.link.outbound.last
  ahead : l.inbound.lastSeen ≤ c.link.outbound.last
  heard_sublist : heard.Sublist (taken.map (·.envelope.message))

namespace Conveys

variable {c c' : Conduct} {wire : Bytes} {l l' : Link} {heard : List Message}
  {taken left : List Letter}

theorem goesOn {b : Bytes} (h : Conveys c wire l heard taken left)
    (hunsent : c.unsent = b ++ c'.unsent) (houtbound : c'.link.outbound = c.link.outbound) :
    Conveys c' (wire ++ b) l heard taken left where
  stream_eq := by
    rw [← h.stream_eq, hunsent]
    simp only [List.append_assoc]
  honest := h.honest
  counted := houtbound ▸ h.counted
  ahead := houtbound ▸ h.ahead
  heard_sublist := h.heard_sublist

theorem speaks {x : Letter} (h : Conveys c wire l heard taken left)
    (hhonest : ¬ x.envelope.message.Contradictory) (hbefore : c.unsent = [])
    (hafter : c'.unsent = Frame.wrap x.body) (hnumber : x.envelope.seq = c'.link.outbound.last)
    (hlt : c.link.outbound.last < c'.link.outbound.last) :
    Conveys c' wire l heard taken (left ++ [x]) where
  stream_eq := by
    rw [List.map_append, Frame.stream_append, ← h.stream_eq, hbefore, hafter]
    simp
  honest := List.forall_mem_append.mpr ⟨h.honest, List.forall_mem_singleton.mpr hhonest⟩
  counted := by
    refine List.forall_mem_append.mpr ⟨fun y hy ↦ ?_, List.forall_mem_singleton.mpr ?_⟩
    · exact UInt32.le_of_lt (UInt32.lt_of_le_of_lt (h.counted y hy) hlt)
    · exact hnumber ▸ UInt32.le_refl _
  ahead := UInt32.le_of_lt (UInt32.lt_of_le_of_lt h.ahead hlt)
  heard_sublist := h.heard_sublist

theorem reads {b : Bytes} (h : Conveys c (b ++ wire) l heard taken left)
    (hreader : l'.reader.buffered = l.reader.buffered ++ b) (hinbound : l'.inbound = l.inbound) :
    Conveys c wire l' heard taken left where
  stream_eq := by
    rw [← h.stream_eq, hreader]
    simp only [List.append_assoc]
  honest := h.honest
  counted := h.counted
  ahead := hinbound ▸ h.ahead
  heard_sublist := h.heard_sublist

/-- A frame that is taken is the first of the letters that are left. -/
theorem takes {body : Bytes} {reader : Frame.Reader} (h : Conveys c wire l heard taken left)
    (htake : l.reader.takeFrame = .ok (some (body, reader))) :
    ∃ x rest, left = x :: rest ∧ x.body = body ∧
      reader.buffered ++ wire ++ c.unsent = Frame.stream (rest.map (·.body)) := by
  have hstream : l.reader.buffered ++ (wire ++ c.unsent) = Frame.stream (left.map (·.body)) := by
    rw [← h.stream_eq, List.append_assoc]
  obtain ⟨x, rest, rfl, rfl, hrest⟩ := Letter.of_takeFrame hstream htake
  exact ⟨x, rest, rfl, rfl, by rw [List.append_assoc, hrest]⟩

theorem skips {x : Letter} {rest : List Letter} (h : Conveys c wire l heard taken (x :: rest))
    (hstream : l'.reader.buffered ++ wire ++ c.unsent = Frame.stream (rest.map (·.body)))
    (hinbound : l'.inbound = l.inbound) : Conveys c wire l' heard (taken ++ [x]) rest where
  stream_eq := hstream
  honest y hy := h.honest y (List.mem_cons_of_mem _ hy)
  counted y hy := h.counted y (List.mem_cons_of_mem _ hy)
  ahead := hinbound ▸ h.ahead
  heard_sublist := by
    rw [List.map_append]
    exact h.heard_sublist.trans (List.sublist_append_left _ _)

theorem hears {x : Letter} {rest : List Letter} {e : Envelope}
    (h : Conveys c wire l heard taken (x :: rest)) (hdecode : Envelope.decode x.body = .ok e)
    (hstream : l'.reader.buffered ++ wire ++ c.unsent = Frame.stream (rest.map (·.body)))
    (hinbound : l'.inbound = ⟨e.seq⟩) :
    Conveys c wire l' (heard ++ [e.message]) (taken ++ [x]) rest := by
  have hsame : e = x.envelope := by
    have hread := Envelope.decode_of_encode x.encode_eq []
    rw [List.append_nil, if_neg (h.honest x List.mem_cons_self), hdecode] at hread
    exact Except.ok.inj hread
  subst hsame
  refine ⟨hstream, fun y hy ↦ h.honest y (List.mem_cons_of_mem _ hy),
    fun y hy ↦ h.counted y (List.mem_cons_of_mem _ hy), ?_, ?_⟩
  · rw [hinbound]
    exact h.counted x List.mem_cons_self
  · rw [List.map_append]
    exact h.heard_sublist.append (List.Sublist.refl _)

theorem exhausted (h : Conveys c wire l heard taken left)
    (hlength : ((taken ++ left).map (·.envelope.message)).length ≤ heard.length) :
    left = [] ∧ heard = taken.map (·.envelope.message) ∧ l.reader.buffered = [] ∧ wire = [] := by
  have hheard := h.heard_sublist.length_le
  simp only [List.length_map, List.length_append] at hlength hheard
  obtain rfl : left = [] := List.length_eq_zero_iff.mp (by omega)
  have hstream := h.stream_eq
  simp only [List.map_nil, Frame.stream_nil, List.append_eq_nil_iff] at hstream
  refine ⟨rfl, h.heard_sublist.eq_of_length ?_, hstream.1.1, hstream.1.2⟩
  simp only [List.length_map]
  omega

end Conveys

/-! ## Both directions -/

/-- Both sides go well, and each of them hears what the other one says. -/
def Attuned (P Q : Position) (c d : Conduct) (forth back : Bytes) : Prop :=
  ∃ taken left taken' left' heard heard',
    c.Follows P ((taken ++ left).map (·.envelope.message)) heard ∧
    d.Follows Q ((taken' ++ left').map (·.envelope.message)) heard' ∧
    Conveys c forth d.link heard' taken left ∧ Conveys d back c.link heard taken' left'

namespace Attuned

variable {P Q : Position} {c c' d : Conduct} {forth back : Bytes} {o : Offer} {effect : Effect}

theorem symm (h : Attuned P Q c d forth back) : Attuned Q P d c back forth := by
  obtain ⟨taken, left, taken', left', heard, heard', hc, hd, hforth, hback⟩ := h
  exact ⟨taken', left', taken, left, heard', heard, hd, hc, hback, hforth⟩

/-- After a move of one side, unless that fails, the two still understand each other. -/
theorem does (hP : P.Lawful) (h : Attuned P Q c d forth back) (hdoes : c.Does o c' effect)
    (hread : ∀ b, o.read = .data b → back = b ++ back.drop b.length) :
    c'.Doomed ∨ Attuned P Q c' d (forth ++ effect.written) (back.drop effect.consumed) := by
  obtain ⟨taken, left, taken', left', heard, heard', hc, hd, hforth, hback⟩ := h
  rcases Conduct.advances_of_does hP hc hdoes with hdoomed | hadvances
  · exact .inl hdoomed
  refine .inr ?_
  cases hadvances with
  | goesOn hfollows hunsent houtbound hreader hinbound hconsumed =>
    refine ⟨taken, left, taken', left', heard, heard', hfollows, hd,
      hforth.goesOn hunsent houtbound, ?_⟩
    rw [hconsumed]
    exact hback.reads (b := []) (by simp [hreader]) hinbound
  | @speaks x hfollows hhonest hbefore hafter hnumber hlt hreader hinbound =>
    refine ⟨taken, left ++ [x], taken', left', heard, heard', ?_, hd, ?_, ?_⟩
    · rw [← List.append_assoc, List.map_append]
      exact hfollows
    · have hwire : forth ++ Effect.none.written = forth := List.append_nil _
      rw [hwire]
      exact hforth.speaks hhonest hbefore hafter hnumber hlt
    · exact hback.reads (b := []) (by simp [hreader]) hinbound
  | @reads b hfollows hunsent houtbound hdata hreader hinbound =>
    refine ⟨taken, left, taken', left', heard, heard', hfollows, hd,
      hforth.goesOn hunsent.symm houtbound, ?_⟩
    rw [hread b hdata] at hback
    exact hback.reads (congrArg Frame.Reader.buffered hreader) hinbound
  -- A frame that is taken is the first letter that is left, whether or not its message is heard.
  | skips hfollows hunsent houtbound htake hreader hinbound =>
    obtain ⟨x, rest, rfl, rfl, hstream⟩ := hback.takes htake
    refine ⟨taken, left, taken' ++ [x], rest, heard, heard', hfollows, ?_,
      hforth.goesOn hunsent.symm houtbound, hback.skips (hreader ▸ hstream) hinbound⟩
    rwa [List.append_assoc]
  | hears hfollows hunsent houtbound htake hdecode hreader hinbound =>
    obtain ⟨x, rest, rfl, rfl, hstream⟩ := hback.takes htake
    refine ⟨taken, left, taken' ++ [x], rest, _, heard', hfollows, ?_,
      hforth.goesOn hunsent.symm houtbound, hback.hears hdecode (hreader ▸ hstream) hinbound⟩
    rwa [List.append_assoc]

end Attuned

/-! ## The whole handshake -/

theorem Effect.buffered_outgoing_apply (effect : Effect) (e : Endpoint) :
    (effect.apply e).outgoing.buffered = e.outgoing.buffered ++ effect.written := by
  cases effect with
  | wrote b => rfl
  | _ => exact (List.append_nil _).symm

theorem Effect.buffered_incoming_apply (effect : Effect) (e : Endpoint) :
    (effect.apply e).incoming.buffered = e.incoming.buffered.drop effect.consumed := by
  cases effect <;> rfl

/-- What chance and a registry decide about a move. -/
structure Chance where
  now : Instant
  registrar : Registrar
  /-- The most that a read gives. -/
  reads : Nat
  /-- The most that a write takes. -/
  writes : Nat
  flush : FlushReply

/-- What one end of a connection offers, as far as chance allows. -/
def Chance.offer (c : Chance) (e : Endpoint) : Offer :=
  { Handshake.offer c.now c.registrar e with
    read := e.incoming.readReply.atMost c.reads
    write := e.outgoing.writeReply.atMost c.writes
    flush := c.flush }

/-- With what a side comes to a handshake. -/
structure Opening where
  own : Hello
  version : UInt8
  limit : Nat
  budget : Duration
  now : Instant

/-- A client and a server at the ends of a connection. -/
structure Parley where
  client : Conduct
  server : Conduct
  /-- From the client to the server. -/
  forth : Pipe
  back : Pipe

namespace Parley

/-- Both ends of a fresh connection with pipes of these capacities. -/
def opened (prover : Prover) (checker : Checker) (ours theirs : Opening) (forth back : Nat) :
    Parley where
  client := .start (.fresh (.client prover) ours.own) (.new ours.version ours.limit) false
    ours.budget ours.now
  server := .start (.fresh (.server checker) theirs.own) (.new theirs.version theirs.limit) true
    theirs.budget theirs.now
  forth := .new forth
  back := .new back

/-- A move of one of the sides. -/
inductive Step where
  | atClient (c : Chance)
  | atServer (c : Chance)

def step (p : Parley) : Step → Parley
  | .atClient c =>
    match p.client.step (c.offer ⟨p.back, p.forth⟩) with
    | none => p
    | some (client, effect) =>
      let e := effect.apply ⟨p.back, p.forth⟩
      { p with client, back := e.incoming, forth := e.outgoing }
  | .atServer c =>
    match p.server.step (c.offer ⟨p.forth, p.back⟩) with
    | none => p
    | some (server, effect) =>
      let e := effect.apply ⟨p.forth, p.back⟩
      { p with server, forth := e.incoming, back := e.outgoing }

def run (p : Parley) (steps : List Step) : Parley := steps.foldl step p

/-- One of the sides fails, or both understand each other. -/
def Sound (p : Parley) : Prop :=
  p.client.Doomed ∨ p.server.Doomed ∨
    Attuned .client .server p.client p.server p.forth.buffered p.back.buffered

variable {p : Parley}

private theorem sound_opened (prover : Prover) (checker : Checker) (ours theirs : Opening)
    (forth back : Nat) : (opened prover checker ours theirs forth back).Sound := by
  have hnothing : ∀ x ∈ ([] : List Letter), ¬ x.envelope.message.Contradictory :=
    List.forall_mem_nil _
  refine .inr (.inr ⟨[], [], [], [], [], [], ?_, ?_, ?_, ?_⟩)
  · exact .acting rfl ⟨⟨prover, rfl⟩, .greets rfl⟩
  · exact .acting rfl ⟨⟨checker, rfl⟩, .listens rfl⟩
  · exact ⟨rfl, hnothing, List.forall_mem_nil _, UInt32.le_refl _, .slnil⟩
  · exact ⟨rfl, hnothing, List.forall_mem_nil _, UInt32.le_refl _, .slnil⟩

theorem Sound.step (h : p.Sound) (step : Step) : (p.step step).Sound := by
  cases step with
  | atClient c =>
    simp only [Parley.step]
    split
    · exact h
    · rename_i client effect hstep
      have hdoes := Conduct.does_step hstep
      rcases h with hdoomed | hdoomed | hattuned
      · exact .inl (hdoomed.does hdoes)
      · exact .inr (.inl hdoomed)
      · have hforth := effect.buffered_outgoing_apply ⟨p.back, p.forth⟩
        have hback := effect.buffered_incoming_apply ⟨p.back, p.forth⟩
        rcases hattuned.does Position.lawful_client hdoes fun _ ↦ Pipe.buffered_of_read with
          hdoomed | hattuned'
        · exact .inl hdoomed
        · exact .inr (.inr (hforth.symm ▸ hback.symm ▸ hattuned'))
  | atServer c =>
    simp only [Parley.step]
    split
    · exact h
    · rename_i server effect hstep
      have hdoes := Conduct.does_step hstep
      rcases h with hdoomed | hdoomed | hattuned
      · exact .inl hdoomed
      · exact .inr (.inl (hdoomed.does hdoes))
      · have hforth := effect.buffered_incoming_apply ⟨p.forth, p.back⟩
        have hback := effect.buffered_outgoing_apply ⟨p.forth, p.back⟩
        rcases hattuned.symm.does Position.lawful_server hdoes fun _ ↦ Pipe.buffered_of_read with
          hdoomed | hattuned'
        · exact .inr (.inl hdoomed)
        · exact .inr (.inr (hforth.symm ▸ hback.symm ▸ hattuned'.symm))

theorem Sound.run (h : p.Sound) (steps : List Step) : (p.run steps).Sound := by
  induction steps generalizing p with
  | nil => exact h
  | cons step steps ih => exact ih (h.step step)

/-- **A handshake leaves nothing behind.** When both sides have been told that their session is up,
it is the same session, nothing is left in the pipes or in what was read, and neither side has
accepted a number that the other one has not given out. -/
theorem Sound.established {outcome outcome' : Outcome} (h : p.Sound)
    (hclient : p.client.result? = some (.ok outcome))
    (hserver : p.server.result? = some (.ok outcome')) :
    outcome.session = outcome'.session ∧ p.forth.buffered = [] ∧ p.back.buffered = [] ∧
      Established outcome.session p.client.link p.server.link ∧
      Established outcome.session p.server.link p.client.link := by
  rcases h with hdoomed | hdoomed | hattuned
  · exact absurd hclient (hdoomed.result?_ne _)
  · exact absurd hserver (hdoomed.result?_ne _)
  obtain ⟨taken, left, taken', left', heard, heard', hc, hd, hforth, hback⟩ := hattuned
  obtain ⟨⟨-, hcalls⟩, hbound⟩ := hc.of_result? hclient
  obtain ⟨⟨-, hhosts⟩, hbound'⟩ := hd.of_result? hserver
  generalize hsaid : (taken ++ left).map (·.envelope.message) = said at hcalls
  generalize hsaid' : (taken' ++ left').map (·.envelope.message) = said' at hhosts
  cases hcalls with
  | joins =>
    cases hhosts with
    | establishes =>
      -- Each side has heard as many messages as the other one has said.
      obtain ⟨rfl, -, hread, hempty⟩ := hforth.exhausted (Nat.le_of_eq (by rw [hsaid]; rfl))
      obtain ⟨rfl, hheard, hread', hempty'⟩ := hback.exhausted (Nat.le_of_eq (by rw [hsaid']; rfl))
      rw [List.append_nil, ← hheard] at hsaid'
      have hid : outcome.session = outcome'.session := by simp_all
      refine ⟨hid, hempty, hempty', ?_, ?_⟩
      · exact ⟨hbound, hid ▸ hbound', hread, hforth.ahead⟩
      · exact ⟨hid ▸ hbound', hbound, hread', hback.ahead⟩

/-- These are the links of a client and a server whose handshake has succeeded on both sides, in
this session. -/
inductive Leaves (id : SessionId) : Link → Link → Prop where
  | intro {prover : Prover} {checker : Checker} {ours theirs : Opening} {forth back : Nat}
      {steps : List Step} {p : Parley} {outcome outcome' : Outcome}
      (hp : p = (opened prover checker ours theirs forth back).run steps)
      (hclient : p.client.result? = some (.ok outcome))
      (hserver : p.server.result? = some (.ok outcome')) (hid : outcome.session = id) :
      Leaves id p.client.link p.server.link

theorem Leaves.established {id : SessionId} {client server : Link} (h : Leaves id client server) :
    Established id client server ∧ Established id server client := by
  cases h with
  | @intro prover checker ours theirs forth back steps p _ _ hp hclient hserver hid =>
    have hsound : p.Sound := hp ▸ (sound_opened prover checker ours theirs forth back).run steps
    obtain ⟨-, -, -, hforth, hback⟩ := hsound.established hclient hserver
    exact hid ▸ ⟨hforth, hback⟩

end Parley

end DeskLink.Handshake
