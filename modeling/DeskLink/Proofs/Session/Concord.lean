import DeskLink.Proofs.Link.Replay
import DeskLink.Proofs.Session.Candor
import DeskLink.Proofs.Session.Overture

/-!
# Two sessions end alike

Two honest sessions at the ends of a connection agree on how it came to an end. One that was told so
by the other side is right: the other one has left before, by a command and for that reason. A
session that does not end by a command on either side has lost its connection, and there is no other
failure: neither of them ever receives a frame that it has to drop or cannot read.

The connection may stall, fill up, fail at either end and be cut in each direction. A cut is what
distinguishes the pipe from the bytes that were written: it holds no more than a beginning of what
is on its way, and nothing is written any more (`Direction`). That is enough, since what a session
receives depends only on the letters that these bytes begin with, and for each of them its sender
still stands.

Each statement is about what happens at the sender. What happens at the receiver is the same with
the connection looked at from its other end (`Pair.mirror`).
-/

namespace DeskLink

/-- The connection is cut in this direction: only so many bytes of what is on its way still come
in. -/
def Pipe.cut (p : Pipe) (arriving : Nat) : Pipe :=
  { p with buffered := p.buffered.take arriving, closed := true }

namespace Session

/-! ## One direction -/

/-- This worker sends to that one through this pipe: there are letters on their way, and the sender
stands by all of them. A pipe that is still open holds all that was written and not read. -/
def Direction (id : SessionId) (s : Worker) (pipe : Pipe) (r : Worker) : Prop :=
  ∃ letters missing wire, InFlight id s wire r.link letters missing ∧
    (∀ x ∈ letters, s.Vouches x.envelope.message) ∧
    pipe.buffered <+: wire ∧ (pipe.closed = false → pipe.buffered = wire)

namespace Direction

variable {id : SessionId} {s s' r r' : Worker} {pipe pipe' : Pipe} {o : Offer} {effect : Effect}

theorem of_established (h : Established id s.link r.link) (hphase : s.phase = .waiting)
    (hbuffered : pipe.buffered = []) : Direction id s pipe r :=
  ⟨[], [], [], h.inFlight hphase, List.forall_mem_nil _, by simp [hbuffered], fun _ ↦ hbuffered⟩

/-- No frame is above the limit, since each would be that of a letter. -/
theorem takeFrame_ne_error (h : Direction id s pipe r) (hlimit : 512 ≤ r.link.limit)
    (why : TransportError) : r.link.reader.takeFrame ≠ .error why := by
  intro htake
  obtain ⟨letters, missing, wire, hflight, hvouches, -, -⟩ := h
  have hbodies : ∀ b ∈ letters.map (·.body),
      b.length ≤ r.link.reader.limit ∧ Frame.Short b := by
    intro b hb
    obtain ⟨x, hx, rfl⟩ := List.mem_map.mp hb
    have hlength := Envelope.length_of_brief (hvouches x hx).brief x.encode_eq
    exact ⟨Nat.le_trans hlength hlimit, x.short⟩
  have hfront : r.link.reader.buffered <+: Frame.stream (letters.map (·.body)) :=
    ⟨wire ++ s.unsent ++ missing, by rw [← hflight.stream_eq]; simp only [List.append_assoc]⟩
  have hfinds := r.link.reader.finds
  rw [htake] at hfinds
  cases hfinds with | barred hbarred => exact Frame.not_barred_of_append hbodies hfront hbarred

theorem passes {body : Bytes} {reader : Frame.Reader} (h : Direction id s pipe r)
    (htake : r.link.reader.takeFrame = .ok (some (body, reader))) (reply : ReadReply) :
    ∃ m, s.Vouches m ∧ (r.link.receive reply).1 = .frame (some m) := by
  obtain ⟨letters, missing, wire, hflight, hvouches, -, -⟩ := h
  obtain ⟨x, rest, rfl, rfl, -⟩ := hflight.takes htake
  have hx := hvouches x List.mem_cons_self
  have hsession : x.envelope.session = r.link.binding :=
    (hflight.named x List.mem_cons_self).trans hflight.bound'.symm
  refine ⟨x.envelope.message, hx, ?_⟩
  rw [Link.receive_of_takeFrame htake, Link.judge_eq_passed_iff]
  refine ⟨x.envelope, ?_, rfl, hflight.fresh x List.mem_cons_self⟩
  simp [Link.addressed?, Envelope.decode_of_brief hx.brief x.encode_eq, hsession]

/-- **Nothing unexpected comes in.** -/
theorem receives (h : Direction id s pipe r) (hlimit : 512 ≤ r.link.limit) (reply : ReadReply) :
    s.Expected (r.link.receive reply).1 := by
  cases htake : r.link.reader.takeFrame with
  | error why => exact absurd htake (h.takeFrame_ne_error hlimit why)
  | ok taken =>
    cases taken with
    | none =>
      simp only [Link.receive, htake]
      split
      · exact .blocked
      · exact .lost
      · exact .lost
      · exact .read
    | some frame =>
      obtain ⟨m, hm, hpassed⟩ := h.passes htake reply
      rw [hpassed]
      exact .frame hm

theorem sends (h : Direction id s pipe r) (hutters : s.Utters s' effect)
    (hending : ∀ e, s.ending? = some e → s'.ending? = some e)
    (hbuffered : pipe'.buffered = pipe.buffered ++ effect.written)
    (hclosed : pipe.closed = true → effect.written = [])
    (hopen : pipe'.closed = false → pipe.closed = false) : Direction id s' pipe' r := by
  obtain ⟨letters, missing, wire, hflight, hvouches, hfront, hwire⟩ := h
  have hvouches' : ∀ x ∈ letters, s'.Vouches x.envelope.message :=
    fun x hx ↦ (hvouches x hx).mono hending
  -- A pipe that is closed has taken nothing, and an open one all that was written.
  have hfront' : pipe'.buffered <+: wire ++ effect.written := by
    rw [hbuffered]
    cases hpipe : pipe.closed with
    | false => exact hwire hpipe ▸ List.prefix_refl _
    | true =>
      rw [hclosed hpipe, List.append_nil, List.append_nil]
      exact hfront
  have hwire' : pipe'.closed = false → pipe'.buffered = wire ++ effect.written :=
    fun hpipe ↦ by rw [hbuffered, hwire (hopen hpipe)]
  cases hutters with
  | continues hcontinues =>
    exact ⟨letters, missing, _, hflight.continues hcontinues, hvouches', hfront', hwire'⟩
  | givesUp hwritten hunsent hintact hlink =>
    rw [hwritten, List.append_nil] at hfront' hwire'
    exact ⟨letters, _, wire, hflight.givesUp hunsent hintact hlink, hvouches', hfront', hwire'⟩
  | begins hwritten hm hbegins =>
    rw [hwritten, List.append_nil] at hfront' hwire'
    obtain ⟨x, rfl, hflight'⟩ := hflight.begins hbegins
    refine ⟨letters ++ [x], missing, wire, hflight', ?_, hfront', hwire'⟩
    exact List.forall_mem_append.mpr ⟨hvouches', List.forall_mem_singleton.mpr hm⟩

theorem reads {b : Bytes} (h : Direction id s pipe r)
    (hdata : pipe.buffered = b ++ pipe.buffered.drop b.length)
    (hreader : r'.link.reader = r.link.reader.feed b) (hinbound : r'.link.inbound = r.link.inbound)
    (hbinding : r'.link.binding = r.link.binding)
    (hbuffered : pipe'.buffered = pipe.buffered.drop b.length)
    (hopen : pipe'.closed = false → pipe.closed = false) : Direction id s pipe' r' := by
  obtain ⟨letters, missing, wire, hflight, hvouches, ⟨tail, rfl⟩, hwire⟩ := h
  rw [hdata, List.append_assoc] at hflight
  refine ⟨letters, missing, pipe.buffered.drop b.length ++ tail,
    hflight.reads (congrArg Frame.Reader.buffered hreader) hinbound hbinding, hvouches, ?_, ?_⟩
  · rw [hbuffered]
    exact List.prefix_append _ _
  · intro hpipe
    have htail := List.append_cancel_left ((List.append_nil _).trans (hwire (hopen hpipe)))
    rw [hbuffered, ← htail, List.append_nil]

theorem hears (h : Direction id s pipe r) (hhears : r.Hears o r' effect)
    (hbinding : r'.link.binding = r.link.binding)
    (hread : ∀ b, o.read = .data b → pipe.buffered = b ++ pipe.buffered.drop b.length)
    (hbuffered : pipe'.buffered = pipe.buffered.drop effect.consumed)
    (hopen : pipe'.closed = false → pipe.closed = false) : Direction id s pipe' r' := by
  obtain ⟨letters, missing, wire, hflight, hvouches, hfront, hwire⟩ := h
  have hpipe (hconsumed : effect.consumed = 0) :
      pipe'.buffered <+: wire ∧ (pipe'.closed = false → pipe'.buffered = wire) := by
    rw [hbuffered, hconsumed, List.drop_zero]
    exact ⟨hfront, fun hpipe ↦ hwire (hopen hpipe)⟩
  cases hhears with
  | deaf hconsumed _ hinbox =>
    have hreader := congrArg Frame.Reader.buffered hinbox.1
    refine ⟨letters, missing, wire, ?_, hvouches, hpipe hconsumed⟩
    exact hflight.reads (b := []) (by simpa using hreader) hinbox.2 hbinding
  | reads hdata hreader hinbound =>
    exact reads ⟨letters, missing, wire, hflight, hvouches, hfront, hwire⟩ (hread _ hdata) hreader
      hinbound hbinding hbuffered hopen
  | skips htake _ hreader hinbound =>
    obtain ⟨x, rest, rfl, rfl, hrest⟩ := hflight.takes htake
    exact ⟨rest, missing, wire, hrest _ hreader (.inl hinbound) hbinding,
      (List.forall_mem_cons.mp hvouches).2, hpipe rfl⟩
  | takes htake hdecode hreader hinbound hconsumed _ =>
    obtain ⟨x, rest, rfl, rfl, hrest⟩ := hflight.takes htake
    have hseq := (Letter.of_decode hdecode).1
    exact ⟨rest, missing, wire, hrest _ hreader (.inr (hseq ▸ hinbound)) hbinding,
      (List.forall_mem_cons.mp hvouches).2, hpipe hconsumed⟩

/-- A cut leaves a beginning of what was on its way. -/
theorem cut (h : Direction id s pipe r) (arriving : Nat) :
    Direction id s (pipe.cut arriving) r := by
  obtain ⟨letters, missing, wire, hflight, hvouches, hfront, -⟩ := h
  exact ⟨letters, missing, wire, hflight, hvouches, (List.take_prefix _ _).trans hfront, nofun⟩

end Direction

/-! ## What may happen -/

namespace Chance

/-- What one end of a connection and an outlet offer when reading or writing fails with these
texts. -/
def faulty (c : Chance) (read write : Option String) (out : Outlet) (e : Endpoint) : Offer :=
  let o := c.offer out e
  { o with read := read.elim o.read .failed, write := write.elim o.write .failed }

variable {c : Chance} {read write : Option String} {out : Outlet} {e : Endpoint}

private theorem faulty_none : c.faulty none none out e = c.offer out e := rfl

theorem buffered_of_faulty {b : Bytes} (h : (c.faulty read write out e).read = .data b) :
    e.incoming.buffered = b ++ e.incoming.buffered.drop b.length := by
  cases read with
  | none => exact Pipe.buffered_of_read h
  | some text => nomatch h

theorem faulty_write_of_closed (h : e.outgoing.closed = true) (n : Nat) :
    (c.faulty read write out e).write ≠ .accepts n := by
  cases write with
  | none =>
    have hreply : e.outgoing.writeReply = .failed "broken pipe" := if_pos h
    show e.outgoing.writeReply.atMost c.writes ≠ .accepts n
    rw [hreply]
    exact WriteReply.noConfusion
  | some text => exact WriteReply.noConfusion

end Chance

namespace Pair

/-- The same with the connection looked at from its other end. -/
def mirror (p : Pair) : Pair := ⟨p.receiver, p.sender, p.back, p.forth⟩

/-- What comes of a move of the sender that is offered this. -/
def offered (p : Pair) (o : Offer) : Pair :=
  match p.sender.worker.step o with
  | none => p
  | some (worker, effect) =>
    let e := effect.apply ⟨p.back, p.forth⟩
    let sender := { p.sender with
      worker
      outlet := effect.applyOutlet p.sender.outlet
      injected := p.sender.injected ++ effect.injected?.toList }
    { p with sender, back := e.incoming, forth := e.outgoing }

/-- What may come about at one end, or on the way from it. -/
inductive Incident where
  | happens (h : Happening)
  /-- A move when reading or writing fails. -/
  | fails (c : Chance) (read write : Option String)
  /-- Only so many bytes of what is on the way still come in. -/
  | cut (arriving : Nat)

/-- What comes of an incident at the sender. -/
def meets (p : Pair) : Incident → Pair
  | .happens h => p.step (.atSender h)
  | .fails c read write => p.offered (c.faulty read write p.sender.outlet ⟨p.back, p.forth⟩)
  | .cut arriving => { p with forth := p.forth.cut arriving }

/-- Something that comes about at one of the ends. -/
inductive Turn where
  | atSender (i : Incident)
  | atReceiver (i : Incident)

def turn (p : Pair) : Turn → Pair
  | .atSender i => p.meets i
  | .atReceiver i => (p.mirror.meets i).mirror

def play (p : Pair) (turns : List Turn) : Pair := turns.foldl turn p

private theorem step_move (p : Pair) (c : Chance) : p.step (.atSender (.move c)) =
    p.offered (c.offer p.sender.outlet ⟨p.back, p.forth⟩) := by
  simp only [step, Party.happens, offered]
  cases p.sender.worker.step (c.offer p.sender.outlet ⟨p.back, p.forth⟩) <;> rfl

/-- What happens at the receiver is the `step` it takes there, so `mirror` gives neither end a
part of its own. -/
theorem turn_atReceiver_happens (p : Pair) (h : Happening) :
    p.turn (.atReceiver (.happens h)) = p.step (.atReceiver h) := rfl

end Pair

/-! ## Both directions -/

/-- Both directions are in order, and so is how each session has ended. -/
structure Accord (id : SessionId) (p : Pair) : Prop where
  forth : Direction id p.sender.worker p.forth p.receiver.worker
  back : Direction id p.receiver.worker p.back p.sender.worker
  limit : 512 ≤ p.sender.worker.link.limit
  limit' : 512 ≤ p.receiver.worker.link.limit
  allowed : ∀ e, p.sender.worker.ending? = some e → p.receiver.worker.Allows e
  allowed' : ∀ e, p.receiver.worker.ending? = some e → p.sender.worker.Allows e

namespace Accord

variable {id : SessionId} {p : Pair}

theorem mirror (h : Accord id p) : Accord id p.mirror :=
  ⟨h.back, h.forth, h.limit', h.limit, h.allowed', h.allowed⟩

/-- How a session ends is allowed when it leaves its loop, and then it does not change. -/
theorem allowed_of_does {o : Offer} {w : Worker} {effect : Effect} {e : Ending} (h : Accord id p)
    (hdoes : p.sender.worker.Does o w effect) (he : w.ending? = some e) :
    p.receiver.worker.Allows e := by
  cases hbefore : p.sender.worker.ending? with
  | some e₀ =>
    obtain rfl := Option.some.inj (he.symm.trans (Worker.ending?_of_does hdoes hbefore))
    exact h.allowed e hbefore
  | none =>
    have hrunning := Worker.running_of_ending? hbefore
    exact Worker.allows_of_does hdoes hrunning h.limit (h.back.receives h.limit o.read) he

theorem offered {o : Offer} (h : Accord id p)
    (hread : ∀ b, o.read = .data b → p.back.buffered = b ++ p.back.buffered.drop b.length)
    (hwrite : p.forth.closed = true → ∀ n, o.write ≠ .accepts n) : Accord id (p.offered o) := by
  unfold Pair.offered
  split
  · exact h
  · rename_i w effect hstep
    have hdoes := Worker.does_step hstep
    have hending := fun e ↦ Worker.ending?_of_does (e := e) hdoes
    have hbinding := Worker.binding_of_speaks (Worker.speaks_of_does hdoes)
    constructor
    · exact h.forth.sends (Worker.utters_of_does hdoes fun e he ↦ (h.allowed e he).peaceful) hending
        (effect.buffered_outgoing_apply ⟨p.back, p.forth⟩)
        (fun hclosed ↦ Worker.written_of_not_accepts hdoes (hwrite hclosed))
        (effect.closed_outgoing_apply ⟨p.back, p.forth⟩)
    · exact h.back.hears (Worker.hears_of_does hdoes) hbinding hread
        (effect.buffered_incoming_apply ⟨p.back, p.forth⟩)
        (effect.closed_incoming_apply ⟨p.back, p.forth⟩)
    · exact (Worker.limit_of_does hdoes).symm ▸ h.limit
    · exact h.limit'
    · exact fun e ↦ h.allowed_of_does hdoes
    · exact fun e he ↦ (h.allowed' e he).mono hending

theorem meets (h : Accord id p) (i : Pair.Incident) : Accord id (p.meets i) := by
  cases i with
  | happens happening =>
    cases happening with
    | push e =>
      simp only [Pair.meets, Pair.step, Party.happens]
      split <;> exact ⟨h.forth, h.back, h.limit, h.limit', h.allowed, h.allowed'⟩
    | command | abandon => exact ⟨h.forth, h.back, h.limit, h.limit', h.allowed, h.allowed'⟩
    | fetch most =>
      simp only [Pair.meets, Pair.step, Party.happens]
      split
      · rename_i b hread
        have hutters : p.sender.worker.Utters (p.sender.worker.fed b) .none :=
          .continues (p.sender.worker.continues_fed b)
        refine ⟨?_, ?_, h.limit, h.limit', h.allowed, h.allowed'⟩
        · exact h.forth.sends hutters (fun _ he ↦ he) (List.append_nil _).symm (fun _ ↦ rfl)
            (fun hopen ↦ hopen)
        · exact h.back.reads (Pipe.buffered_of_read hread) rfl rfl rfl rfl (fun hopen ↦ hopen)
      · exact h
    | move c =>
      rw [Pair.meets, Pair.step_move, ← Chance.faulty_none]
      exact h.offered (fun _ ↦ Chance.buffered_of_faulty)
        fun hclosed ↦ Chance.faulty_write_of_closed hclosed
  | fails c read write =>
    exact h.offered (fun _ ↦ Chance.buffered_of_faulty)
      fun hclosed ↦ Chance.faulty_write_of_closed hclosed
  | cut arriving => exact ⟨h.forth.cut arriving, h.back, h.limit, h.limit', h.allowed, h.allowed'⟩

theorem play (h : Accord id p) (turns : List Pair.Turn) : Accord id (p.play turns) := by
  induction turns generalizing p with
  | nil => exact h
  | cons turn turns ih =>
    cases turn with
    | atSender i => exact ih (h.meets i)
    | atReceiver i => exact ih (h.mirror.meets i).mirror

end Accord

private theorem accord_begin {id : SessionId} {s r : Terms} (h : Established id s.link r.link)
    (h' : Established id r.link s.link) (hlimit : 512 ≤ s.link.limit) (hlimit' : 512 ≤ r.link.limit)
    (forth back : Nat) : Accord id (Pair.begin id s r forth back) where
  forth := .of_established h rfl rfl
  back := .of_established h' rfl rfl
  limit := hlimit
  limit' := hlimit'
  allowed := nofun
  allowed' := nofun

/-- How a session is consistent with the one at the other end. -/
structure Worker.Consistent (w other : Worker) : Prop where
  /-- Whatever it receives next, it drops no frame. -/
  dropless : ∀ reply, (w.link.receive reply).1 ≠ .frame none
  /-- If it fails, it has lost the connection. -/
  lost : ∀ why, w.ending? = some (.error why) → ∃ detail, why = .lost detail
  /-- If it was told so by the other one, that one has left by a command and for this reason. -/
  matched : ∀ reason, w.ending? = some (.ok ⟨.peer, reason⟩) →
    other.ending? = some (.ok ⟨.own, reason⟩)

theorem Accord.consistent {id : SessionId} {p : Pair} (h : Accord id p) :
    p.sender.worker.Consistent p.receiver.worker where
  dropless reply hdrop := by
    have hexpected := h.back.receives h.limit reply
    rw [hdrop] at hexpected
    nomatch hexpected
  lost why hending := by
    have hallowed := h.allowed _ hending
    cases why with
    | lost detail => exact ⟨detail, rfl⟩
    | _ => exact hallowed.elim
  matched reason hending := h.allowed _ hending

namespace Pair

/-- **Two sessions end alike.** Between sessions that begin with the links of a handshake, each with
a limit of at least 512 bytes, whatever happens at both ends and to the connection, neither of them
drops a frame or fails for anything but a lost connection, and one that was told to end by the other
side ends for the reason for which that one had left before. -/
theorem concord {id : SessionId} {s r : Terms} (h : Handshake.Parley.Leaves id s.link r.link)
    (hlimit : 512 ≤ s.link.limit) (hlimit' : 512 ≤ r.link.limit) (forth back : Nat)
    (turns : List Turn) :
    let p := (Pair.begin id s r forth back).play turns
    p.sender.worker.Consistent p.receiver.worker ∧
      p.receiver.worker.Consistent p.sender.worker := by
  intro p
  obtain ⟨hforth, hback⟩ := h.established
  have haccord : Accord id p := (accord_begin hforth hback hlimit hlimit' forth back).play turns
  exact ⟨haccord.consistent, haccord.mirror.consistent⟩

/-- After a handshake one side closes while an event of the other is on its way, and the way back is
cut. -/
theorem concord_closing :
    let name : Uuid := ⟨List.replicate 16 7, rfl⟩
    let id : SessionId := ⟨name⟩
    let prover : Prover := ⟨fun nonce _ ↦ nonce.bytes⟩
    let checker : Checker := ⟨fun nonce credential _ ↦ credential == nonce.bytes⟩
    let ours : Handshake.Opening := ⟨⟨⟨1, 0⟩, name, "laptop", 0⟩, 1, 512, 1000, 0⟩
    let theirs : Handshake.Opening := ⟨⟨⟨1, 2⟩, name, "desk", 0⟩, 1, 512, 1000, 0⟩
    let d : Handshake.Chance := ⟨0, ⟨.ok (), .zero, fun _ _ ↦ .ok id⟩, 100, 100, .finished⟩
    let before := (Handshake.Parley.opened prover checker ours theirs 100 100).run
      (List.replicate 3 (.atClient d) ++ List.replicate 9 (.atServer d) ++
        List.replicate 7 (.atClient d) ++ List.replicate 7 (.atServer d) ++
        List.replicate 3 (.atClient d))
    let s : Terms := ⟨⟨1, 0⟩, 1000, 1000, before.client.link, 0, 4⟩
    let r : Terms := ⟨⟨1, 0⟩, 1000, 1000, before.server.link, 0, 4⟩
    let c : Chance := ⟨0, 100, 100, .finished, .accepting⟩
    let key : Event := .key 30 true ⟨0⟩ 5
    Handshake.Parley.Leaves id s.link r.link ∧
    ∃ p, p = (Pair.begin id s r 100 100).play [.atReceiver (.happens (.push key)),
        .atReceiver (.happens (.move c)), .atReceiver (.happens (.move c)),
        .atSender (.happens (.command .userInitiated)), .atSender (.happens (.move c)),
        .atReceiver (.cut 20), .atSender (.happens (.move c)), .atSender (.happens (.move c)),
        .atReceiver (.happens (.move c)), .atReceiver (.happens (.move c)),
        .atReceiver (.happens (.move c))] ∧
      p.receiver.worker.ending? = some (.ok ⟨.peer, .userInitiated⟩) ∧
      p.sender.worker.ending? = some (.ok ⟨.own, .userInitiated⟩) := by
  intro name id prover checker ours theirs d before s r c key
  have hclient : before.client.result? = some (.ok ⟨id, theirs.own.identity, ⟨1, 0⟩⟩) := by
    decide +kernel
  have hserver : before.server.result? = some (.ok ⟨id, ours.own.identity, ⟨1, 0⟩⟩) := by
    decide +kernel
  have hleaves : Handshake.Parley.Leaves id s.link r.link := .intro rfl hclient hserver rfl
  refine ⟨hleaves, _, rfl, ?_, ?_⟩
  · decide +kernel
  · exact (concord hleaves (by decide +kernel) (by decide +kernel) 100 100 _).2.matched _
      (by decide +kernel)

end Pair

end Session

end DeskLink
