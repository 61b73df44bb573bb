import DeskLink.Proofs.Link
import DeskLink.Proofs.Transport.Reassembly

/-!
# Nothing is replayed

A link is fed by whoever writes on the stream, so the frames that come may be forged, repeated,
reordered or left out. What the link hands on is nevertheless settled by the frames alone: the
messages in envelopes for its session whose number is above that of every such envelope before.

The link does not remember the envelopes that came, only the greatest number it has accepted. That
this is enough is `lastSeen_judgeAll_lt_iff`: a number is above the greatest accepted one exactly if
it is above the numbers of all envelopes for the session, the dropped ones among them, since one
that was dropped as late was not above the greatest either.

A malformed frame is answered with a failure and changes as little as a dropped one, so the
statements need not stop at it, although whoever uses the link does.
-/

namespace DeskLink.Link

/-! ## One frame after another -/

/-- What comes of a frame. -/
def judge (l : Link) (body : Bytes) : Arrival × Link :=
  match l.interpret body with
  | .ok (m, l) => (.frame m, l)
  | .error why => (.failed why, l)

/-- Frames with what comes of each when they come in this order, and the link then. -/
def judgeAll (l : Link) : List Bytes → List (Bytes × Arrival) × Link
  | [] => ([], l)
  | body :: bodies =>
    let (arrival, l) := l.judge body
    let (later, l) := l.judgeAll bodies
    ((body, arrival) :: later, l)

/-- The envelope in a frame, when its kind is assigned and it is for the session of the link; a link
without a session takes any. -/
def addressed? (l : Link) (body : Bytes) : Option Envelope :=
  match Envelope.decode body with
  | .ok e => if l.binding.isSome ∧ e.session ≠ l.binding then none else some e
  | .error _ => none

def Arrival.message? : Arrival → Option Message
  | .frame m => m
  | .blocked | .read _ | .failed _ => none

def messages (taken : List (Bytes × Arrival)) : List Message := taken.filterMap (·.2.message?)

/-- The frames whose messages were handed on. -/
def delivered (taken : List (Bytes × Arrival)) : List Bytes :=
  (taken.filter (·.2.message?.isSome)).map (·.1)

/-- The frames that were not dropped. -/
def kept (taken : List (Bytes × Arrival)) : List Bytes :=
  (taken.filter (·.2 ≠ .frame none)).map (·.1)

variable {l l' : Link} {body : Bytes} {bodies : List Bytes}

/-- What can come of a frame. -/
inductive Judges (l : Link) (body : Bytes) : Arrival → Link → Prop where
  | passed {e : Envelope} (he : l.addressed? body = some e) (hseq : l.inbound.lastSeen < e.seq) :
      Judges l body (.frame (some e.message)) { l with inbound := ⟨e.seq⟩ }
  | dropped (hformed : ∀ d, Envelope.decode body ≠ .error (.malformed d))
      (hlate : ∀ e, l.addressed? body = some e → ¬ l.inbound.lastSeen < e.seq) :
      Judges l body (.frame none) l
  | malformed {d : Envelope.Defect} (hdecode : Envelope.decode body = .error (.malformed d)) :
      Judges l body (.failed (.malformed d.message)) l

theorem judges (l : Link) (body : Bytes) : l.Judges body (l.judge body).1 (l.judge body).2 := by
  unfold judge interpret
  cases hdecode : Envelope.decode body with
  | error why =>
    cases why with
    | malformed d => exact .malformed hdecode
    | unknownKind code => exact .dropped (by simp [hdecode]) (by simp [addressed?, hdecode])
  | ok e =>
    by_cases hforeign : l.binding.isSome ∧ e.session ≠ l.binding
    · simp only [pass?, if_pos hforeign]
      exact .dropped (by simp [hdecode]) (by simp [addressed?, hdecode, hforeign])
    · have he : l.addressed? body = some e := by simp only [addressed?, hdecode, if_neg hforeign]
      by_cases hseq : l.inbound.lastSeen < e.seq
      · simp only [pass?, if_neg hforeign, Sequence.Guard.accept?, if_pos hseq]
        exact .passed he hseq
      · simp only [pass?, if_neg hforeign, Sequence.Guard.accept?, if_neg hseq]
        exact .dropped (by simp [hdecode]) (by simpa [he] using hseq)

/-- A frame leaves everything but the greatest accepted number as it was. -/
theorem judge_snd (l : Link) (body : Bytes) :
    (l.judge body).2 = { l with inbound := (l.judge body).2.inbound } := by
  have hjudges := l.judges body
  generalize l.judge body = judged at hjudges ⊢
  obtain ⟨arrival, l'⟩ := judged
  cases hjudges <;> rfl

private theorem eq_of_judge_dropped (h : l.judge body = (.frame none, l')) : l' = l := by
  have hjudges := l.judges body
  rw [h] at hjudges
  cases hjudges with
  | dropped => rfl

theorem addressed?_judge (l : Link) (body : Bytes) :
    (l.judge body).2.addressed? = l.addressed? := by
  rw [judge_snd]
  rfl

@[simp] theorem judgeAll_nil (l : Link) : l.judgeAll [] = ([], l) := rfl

@[simp] theorem judgeAll_cons (l : Link) (body : Bytes) (bodies : List Bytes) :
    l.judgeAll (body :: bodies) = ((body, (l.judge body).1) :: ((l.judge body).2.judgeAll bodies).1,
      ((l.judge body).2.judgeAll bodies).2) := rfl

theorem judgeAll_append (l : Link) (before after : List Bytes) :
    l.judgeAll (before ++ after) =
      ((l.judgeAll before).1 ++ ((l.judgeAll before).2.judgeAll after).1,
        ((l.judgeAll before).2.judgeAll after).2) := by
  induction before generalizing l with
  | nil => rfl
  | cons body before ih => rw [List.cons_append, judgeAll_cons, ih, judgeAll_cons, List.cons_append]

@[simp] theorem map_fst_judgeAll (l : Link) (bodies : List Bytes) :
    (l.judgeAll bodies).1.map (·.1) = bodies := by
  induction bodies generalizing l with
  | nil => rfl
  | cons body bodies ih => rw [judgeAll_cons, List.map_cons, ih]

private theorem binding_judgeAll (l : Link) (bodies : List Bytes) :
    (l.judgeAll bodies).2.binding = l.binding := by
  induction bodies generalizing l with
  | nil => rfl
  | cons body bodies ih =>
    rw [judgeAll_cons, ih, judge_snd]

private theorem addressed?_judgeAll (l : Link) (bodies : List Bytes) :
    (l.judgeAll bodies).2.addressed? = l.addressed? := by
  induction bodies generalizing l with
  | nil => rfl
  | cons body bodies ih => rw [judgeAll_cons, ih, addressed?_judge]

/-! ## What the greatest accepted number stands for -/

private theorem lastSeen_judge_lt_iff (l : Link) (body : Bytes) (seq : UInt32) :
    (l.judge body).2.inbound.lastSeen < seq ↔
      l.inbound.lastSeen < seq ∧ ∀ e, l.addressed? body = some e → e.seq < seq := by
  have hjudges := l.judges body
  generalize l.judge body = judged at hjudges ⊢
  obtain ⟨arrival, l'⟩ := judged
  cases hjudges with
  | @passed e he hseq =>
    simp only [he, Option.some.injEq, forall_eq']
    exact ⟨fun h ↦ ⟨UInt32.lt_trans hseq h, h⟩, And.right⟩
  | dropped _ hlate =>
    refine ⟨fun h ↦ ⟨h, fun e he ↦ ?_⟩, And.left⟩
    exact UInt32.lt_of_le_of_lt (UInt32.not_lt.mp (hlate e he)) h
  | malformed hdecode =>
    refine ⟨fun h ↦ ⟨h, fun e he ↦ ?_⟩, And.left⟩
    simp [addressed?, hdecode] at he

/-- **One number stands for all.** -/
theorem lastSeen_judgeAll_lt_iff (l : Link) (bodies : List Bytes) (seq : UInt32) :
    (l.judgeAll bodies).2.inbound.lastSeen < seq ↔
      l.inbound.lastSeen < seq ∧
        ∀ body ∈ bodies, ∀ e, l.addressed? body = some e → e.seq < seq := by
  induction bodies generalizing l with
  | nil => simp
  | cons body bodies ih =>
    rw [judgeAll_cons, ih, lastSeen_judge_lt_iff, addressed?_judge, List.forall_mem_cons, and_assoc]

/-- The envelope is numbered above all those for the session that came before it, in these frames
or earlier. -/
def Fresh (l : Link) (before : List Bytes) (e : Envelope) : Prop :=
  l.inbound.lastSeen < e.seq ∧
    ∀ body ∈ before, ∀ e', l.addressed? body = some e' → e'.seq < e.seq

theorem judge_eq_passed_iff {m : Message} : (l.judge body).1 = .frame (some m) ↔
    ∃ e, l.addressed? body = some e ∧ e.message = m ∧ l.inbound.lastSeen < e.seq := by
  have hjudges := l.judges body
  generalize l.judge body = judged at hjudges ⊢
  obtain ⟨arrival, l'⟩ := judged
  cases hjudges with
  | passed he hseq => simp [he, hseq]
  | dropped _ hlate =>
    refine ⟨nofun, ?_⟩
    rintro ⟨e, he, -, hseq⟩
    exact absurd hseq (hlate e he)
  | malformed hdecode => simp [addressed?, hdecode]

/-! ## What is handed on -/

theorem eq_judge_of_judgeAll {before after : List (Bytes × Arrival)} {arrival : Arrival}
    (h : (l.judgeAll bodies).1 = before ++ (body, arrival) :: after) :
    arrival = ((l.judgeAll (before.map (·.1))).2.judge body).1 := by
  have hbodies : bodies = before.map (·.1) ++ body :: after.map (·.1) := by
    rw [← map_fst_judgeAll l bodies, h, List.map_append, List.map_cons]
  rw [hbodies, judgeAll_append, judgeAll_cons] at h
  have hlength : (l.judgeAll (before.map (·.1))).1.length = before.length := by
    have hmap := congrArg List.length (map_fst_judgeAll l (before.map (·.1)))
    rwa [List.length_map, List.length_map] at hmap
  obtain ⟨-, hrest⟩ := List.append_inj h hlength
  obtain ⟨-, harrival⟩ := Prod.mk.inj (List.cons.inj hrest).1
  exact harrival.symm

/-- **What is handed on.** -/
theorem passed_iff_fresh {before after : List (Bytes × Arrival)} {arrival : Arrival}
    (h : (l.judgeAll bodies).1 = before ++ (body, arrival) :: after) (m : Message) :
    arrival = .frame (some m) ↔
      ∃ e, l.addressed? body = some e ∧ e.message = m ∧ l.Fresh (before.map (·.1)) e := by
  rw [eq_judge_of_judgeAll h, judge_eq_passed_iff, addressed?_judgeAll]
  simp only [lastSeen_judgeAll_lt_iff, Fresh]

private theorem failed_iff_malformed {before after : List (Bytes × Arrival)} {arrival : Arrival}
    (h : (l.judgeAll bodies).1 = before ++ (body, arrival) :: after) :
    (∃ why, arrival = .failed why) ↔ ∃ d, Envelope.decode body = .error (.malformed d) := by
  rw [eq_judge_of_judgeAll h]
  have hjudges := (l.judgeAll (before.map (·.1))).2.judges body
  generalize (l.judgeAll (before.map (·.1))).2.judge body = judged at hjudges ⊢
  obtain ⟨arrival, l'⟩ := judged
  cases hjudges with
  | passed he _ =>
    refine ⟨nofun, ?_⟩
    rintro ⟨d, hd⟩
    simp [addressed?, hd] at he
  | dropped hformed _ => exact ⟨nofun, fun ⟨d, hd⟩ ↦ absurd hd (hformed d)⟩
  | malformed hdecode => exact ⟨fun _ ↦ ⟨_, hdecode⟩, fun _ ↦ ⟨_, rfl⟩⟩

/-- One of these frames is for the session and numbered below the other. -/
def Below (l : Link) (body body' : Bytes) : Prop :=
  ∃ e e', l.addressed? body = some e ∧ l.addressed? body' = some e' ∧ e.seq < e'.seq

@[simp] theorem delivered_cons (x : Bytes × Arrival) (taken : List (Bytes × Arrival)) :
    delivered (x :: taken) = if x.2.message?.isSome then x.1 :: delivered taken
      else delivered taken := by
  rw [delivered, List.filter_cons]
  split <;> rfl

/-- What is handed on is numbered above all that has been accepted before, and in order. -/
theorem delivered_judgeAll (l : Link) (bodies : List Bytes) :
    (∀ body ∈ delivered (l.judgeAll bodies).1,
      ∃ e, l.addressed? body = some e ∧ l.inbound.lastSeen < e.seq) ∧
    (delivered (l.judgeAll bodies).1).Pairwise l.Below := by
  induction bodies generalizing l with
  | nil => exact ⟨List.forall_mem_nil _, .nil⟩
  | cons body bodies ih =>
    obtain ⟨hfresh, hordered⟩ := ih (l.judge body).2
    have hjudges := l.judges body
    rw [judgeAll_cons, delivered_cons]
    generalize l.judge body = judged at *
    obtain ⟨arrival, l'⟩ := judged
    cases hjudges with
    | @passed e he hseq =>
      -- Those that follow were judged by a link with this frame's number.
      refine ⟨List.forall_mem_cons.mpr ⟨⟨e, he, hseq⟩, fun body' hbody' ↦ ?_⟩,
        List.pairwise_cons.mpr ⟨fun body' hbody' ↦ ?_, hordered⟩⟩
      · obtain ⟨e', he', hlt⟩ := hfresh body' hbody'
        exact ⟨e', he', UInt32.lt_trans hseq hlt⟩
      · obtain ⟨e', he', hlt⟩ := hfresh body' hbody'
        exact ⟨e, e', he, he', hlt⟩
    | dropped | malformed => exact ⟨hfresh, hordered⟩

private theorem nodup_delivered (l : Link) (bodies : List Bytes) :
    (delivered (l.judgeAll bodies).1).Nodup := by
  refine (delivered_judgeAll l bodies).2.imp ?_
  rintro body _ ⟨e, e', he, he', hlt⟩ rfl
  obtain rfl := Option.some.inj (he.symm.trans he')
  exact UInt32.lt_irrefl _ hlt

/-! ## What is dropped -/

@[simp] theorem kept_cons (x : Bytes × Arrival) (taken : List (Bytes × Arrival)) :
    kept (x :: taken) = if x.2 = .frame none then kept taken else x.1 :: kept taken := by
  rw [kept, List.filter_cons]
  by_cases hx : x.2 = .frame none <;> simp [hx, kept]

@[simp] theorem messages_cons (x : Bytes × Arrival) (taken : List (Bytes × Arrival)) :
    messages (x :: taken) = x.2.message?.toList ++ messages taken := by
  cases hx : x.2.message? <;> simp [messages, hx]

/-- **Frames that are dropped might as well not have come.** -/
theorem judgeAll_kept (l : Link) (bodies : List Bytes) :
    messages (l.judgeAll (kept (l.judgeAll bodies).1)).1 = messages (l.judgeAll bodies).1 ∧
      (l.judgeAll (kept (l.judgeAll bodies).1)).2 = (l.judgeAll bodies).2 := by
  induction bodies generalizing l with
  | nil => exact ⟨rfl, rfl⟩
  | cons body bodies ih =>
    obtain ⟨hmessages, hlink⟩ := ih (l.judge body).2
    rw [judgeAll_cons, kept_cons, messages_cons]
    split
    · rename_i hdropped
      have hsame : (l.judge body).2 = l := eq_of_judge_dropped (Prod.ext hdropped rfl)
      simp only at hdropped
      rw [hsame] at hmessages hlink ⊢
      rw [hdropped]
      exact ⟨hmessages, hlink⟩
    · rw [judgeAll_cons, messages_cons, hmessages, hlink]
      exact ⟨rfl, rfl⟩

/-! ## Frames out of a stream -/

/-- What is done with a link, which may also be sending. -/
inductive Turn where
  /-- One attempt to go on with a receipt, with what the stream answers if it is asked. -/
  | receive (reply : ReadReply)
  | prepare (m : Message)
  | sent (size : Nat)

/-- What has come of receiving on a link so far. -/
structure Receipt where
  link : Link
  /-- The bytes read. -/
  read : Bytes
  /-- The frames taken, with what came of each. -/
  taken : List (Bytes × Arrival)

def receipt (l : Link) : Receipt := ⟨l, [], []⟩

namespace Receipt

/-- After one attempt to go on. -/
def attempt (s : Receipt) (reply : ReadReply) : Receipt :=
  let (arrival, link) := s.link.receive reply
  match s.link.reader.takeFrame with
  | .ok (some (body, _)) => { s with link, taken := s.taken ++ [(body, arrival)] }
  | .ok none => { s with link, read := s.read ++ reply.bytes }
  | .error _ => { s with link }

def turn (s : Receipt) : Turn → Receipt
  | .receive reply => s.attempt reply
  | .prepare m => { s with link := (s.link.prepare m).2 }
  | .sent size => { s with link := s.link.sent size }

def run (s : Receipt) (turns : List Turn) : Receipt := turns.foldl turn s

/-- What is true of what has come of receiving on this link. -/
structure Faithful (l : Link) (s : Receipt) : Prop where
  taken_eq : s.taken = (l.judgeAll (s.taken.map (·.1))).1
  inbound_eq : s.link.inbound = (l.judgeAll (s.taken.map (·.1))).2.inbound
  binding_eq : s.link.binding = l.binding
  stream_eq : l.reader.buffered ++ s.read =
    Frame.stream (s.taken.map (·.1)) ++ s.link.reader.buffered

end Receipt

/-- What comes of a frame depends on the session and on the greatest accepted number. -/
theorem judge_congr (hbinding : l'.binding = l.binding) (hinbound : l'.inbound = l.inbound)
    (body : Bytes) :
    l'.judge body = ((l.judge body).1, { l' with inbound := (l.judge body).2.inbound }) := by
  obtain ⟨version, reader, binding, outbound, inbound, bytesSent, bytesReceived⟩ := l'
  obtain rfl := hbinding
  obtain rfl := hinbound
  unfold judge interpret
  cases Envelope.decode body with
  | error why => cases why <;> rfl
  | ok e =>
    by_cases hforeign : l.binding.isSome ∧ e.session ≠ l.binding
    · simp only [pass?, if_pos hforeign]
    · simp only [pass?, if_neg hforeign]
      cases l.inbound.accept? e.seq <;> rfl

private theorem judgeAll_congr (hbinding : l'.binding = l.binding)
    (hinbound : l'.inbound = l.inbound) (bodies : List Bytes) :
    (l'.judgeAll bodies).1 = (l.judgeAll bodies).1 ∧
      (l'.judgeAll bodies).2.inbound = (l.judgeAll bodies).2.inbound := by
  induction bodies generalizing l l' with
  | nil => exact ⟨rfl, hinbound⟩
  | cons body bodies ih =>
    have hjudge := judge_congr hbinding hinbound body
    have hsame : (l'.judge body).2.binding = (l.judge body).2.binding := by
      rw [judge_snd l', judge_snd l]
      exact hbinding
    obtain ⟨htaken, hlast⟩ := ih hsame (by rw [hjudge])
    rw [judgeAll_cons, judgeAll_cons, htaken, hlast, hjudge]
    exact ⟨rfl, rfl⟩

/-- A frame in the buffer is judged, whatever the stream would answer. -/
theorem receive_of_takeFrame {reader : Frame.Reader}
    (h : l.reader.takeFrame = .ok (some (body, reader))) (reply : ReadReply) :
    l.receive reply = judge { l with reader } body := by
  simp only [receive, h]
  unfold judge
  cases interpret { l with reader } body <;> rfl

/-- Without a frame in the buffer, what is read is put there and nothing else changes. -/
theorem receive_of_takeFrame_none (h : l.reader.takeFrame = .ok none) (reply : ReadReply) :
    (l.receive reply).2 = { l with
      reader := l.reader.feed reply.bytes
      bytesReceived := l.bytesReceived + reply.bytes.length } := by
  simp only [receive, h]
  cases reply with
  | notReady | failed text => simp [ReadReply.bytes]
  | data b => cases b <;> simp [ReadReply.bytes]

/-- A frame that is dropped is out of the buffer, and nothing else has changed. -/
theorem eq_of_receive_dropped {reply : ReadReply} (h : l.receive reply = (.frame none, l')) :
    l' = { l with reader := l'.reader } := by
  have hreceives := receives_of_receive h
  cases hreceives <;> rfl

private theorem incoming_prepare (l : Link) (m : Message) :
    (l.prepare m).2 = { l with outbound := (l.prepare m).2.outbound } := by
  have hprepares := l.prepares m
  generalize l.prepare m = prepared at hprepares ⊢
  obtain ⟨begun, l'⟩ := prepared
  cases hprepares <;> rfl

namespace Receipt

variable {l : Link} {s : Receipt}

theorem faithful_receipt (l : Link) : l.receipt.Faithful l := ⟨rfl, rfl, rfl, List.append_nil _⟩

theorem Faithful.attempt (h : s.Faithful l) (reply : ReadReply) :
    (s.attempt reply).Faithful l := by
  have hfinds := s.link.reader.finds
  cases htake : s.link.reader.takeFrame with
  | error why =>
    have hreceive : s.link.receive reply = (.failed (.ofTransport why), s.link) := by
      simp only [receive, htake]
    simp only [Receipt.attempt, htake, hreceive]
    exact h
  | ok taken =>
    rw [htake] at hfinds
    cases hfinds with
    | @frame body rest _ _ hbuffered =>
      -- The frame is judged as it would be behind those taken before it.
      have hjudge : s.link.receive reply =
          (((l.judgeAll (s.taken.map (·.1))).2.judge body).1,
            { s.link with
              reader := { s.link.reader with buffered := rest }
              inbound := ((l.judgeAll (s.taken.map (·.1))).2.judge body).2.inbound }) := by
        rw [receive_of_takeFrame htake]
        refine judge_congr ?_ ?_ body
        · exact h.binding_eq.trans (binding_judgeAll l _).symm
        · exact h.inbound_eq
      have hbodies : (s.attempt reply).taken.map (·.1) = s.taken.map (·.1) ++ [body] := by
        simp only [Receipt.attempt, htake, List.map_append, List.map_cons, List.map_nil]
      constructor
      · rw [hbodies, judgeAll_append, ← h.taken_eq]
        simp only [Receipt.attempt, htake, hjudge, judgeAll_cons, judgeAll_nil]
      · rw [hbodies, judgeAll_append]
        simp only [Receipt.attempt, htake, hjudge, judgeAll_cons, judgeAll_nil]
      · simp only [Receipt.attempt, htake, hjudge]
        exact h.binding_eq
      · rw [hbodies, Frame.stream_append, Frame.stream_cons, Frame.stream_nil, List.append_nil]
        simp only [Receipt.attempt, htake, hjudge]
        rw [h.stream_eq, hbuffered, List.append_assoc]
    | nothing =>
      have hreceive := receive_of_takeFrame_none htake reply
      simp only [Receipt.attempt, htake, hreceive]
      refine ⟨h.taken_eq, h.inbound_eq, h.binding_eq, ?_⟩
      rw [← List.append_assoc, h.stream_eq, List.append_assoc]
      rfl

theorem Faithful.turn (h : s.Faithful l) (turn : Turn) : (s.turn turn).Faithful l := by
  cases turn with
  | receive reply => exact h.attempt reply
  | prepare m =>
    rw [Receipt.turn, incoming_prepare]
    exact ⟨h.taken_eq, h.inbound_eq, h.binding_eq, h.stream_eq⟩
  | sent size => exact ⟨h.taken_eq, h.inbound_eq, h.binding_eq, h.stream_eq⟩

theorem Faithful.run (h : s.Faithful l) (turns : List Turn) : (s.run turns).Faithful l := by
  induction turns generalizing s with
  | nil => exact h
  | cons turn turns ih => exact ih (h.turn turn)

end Receipt

/-- **Replay protection.** Whatever a stream answers and whatever is sent meanwhile, the bytes read
are frames and the beginning of one, and a message is handed on for a frame exactly if its kind is
assigned, it is for the session of the link and it is numbered above all such frames before; it is a
failure exactly if it is malformed. So no frame is handed on twice, nor after one with a greater
number. A frame that is dropped changes neither number and no session, and a link with the same
session and greatest accepted number, to which only the frames come that were not dropped, hands on
the same messages. -/
theorem replay_protection (l : Link) (turns : List Turn) :
    let s := l.receipt.run turns
    l.reader.buffered ++ s.read = Frame.stream (s.taken.map (·.1)) ++ s.link.reader.buffered ∧
      (∀ before body arrival after, s.taken = before ++ (body, arrival) :: after →
        (∀ m, arrival = .frame (some m) ↔
          ∃ e, l.addressed? body = some e ∧ e.message = m ∧ l.Fresh (before.map (·.1)) e) ∧
        ((∃ why, arrival = .failed why) ↔ ∃ d, Envelope.decode body = .error (.malformed d))) ∧
      (delivered s.taken).Pairwise l.Below ∧ (delivered s.taken).Nodup ∧
      (∀ reply link, s.link.receive reply = (.frame none, link) →
        link.inbound = s.link.inbound ∧ link.outbound = s.link.outbound ∧
          link.binding = s.link.binding) ∧
      ∀ (l' : Link) turns', l'.binding = l.binding → l'.inbound = l.inbound →
        let t := l'.receipt.run turns'
        t.taken.map (·.1) = kept s.taken →
          messages t.taken = messages s.taken ∧ t.link.inbound = s.link.inbound := by
  intro s
  have hfaithful : s.Faithful l := (Receipt.faithful_receipt l).run turns
  -- Only the bodies of the frames matter, and neither how they came in nor what was sent meanwhile.
  obtain ⟨bodies, hbodies⟩ : ∃ bodies, s.taken.map (·.1) = bodies := ⟨_, rfl⟩
  have htaken := hfaithful.taken_eq
  have hinbound := hfaithful.inbound_eq
  rw [hbodies] at htaken hinbound
  refine ⟨hfaithful.stream_eq, ?_, ?_, ?_, ?_, ?_⟩
  · intro before body arrival after hsplit
    rw [htaken] at hsplit
    exact ⟨passed_iff_fresh hsplit, failed_iff_malformed hsplit⟩
  · rw [htaken]
    exact (delivered_judgeAll l bodies).2
  · rw [htaken]
    exact nodup_delivered l bodies
  · intro reply link hdropped
    rw [eq_of_receive_dropped hdropped]
    exact ⟨rfl, rfl, rfl⟩
  · intro l' turns' hbinding' hinbound' t hkept
    have hfaithful' : t.Faithful l' := (Receipt.faithful_receipt l').run turns'
    obtain ⟨hsame, hlast⟩ := judgeAll_congr hbinding' hinbound' (kept (l.judgeAll bodies).1)
    obtain ⟨hmessages, hlink⟩ := judgeAll_kept l bodies
    rw [htaken] at hkept ⊢
    rw [hfaithful'.taken_eq, hfaithful'.inbound_eq, hkept, hsame, hlast, hlink, hinbound]
    exact ⟨hmessages, rfl⟩

/-- Of a heartbeat, the same again, one for another session and numbered above, a frame of no kind,
a late one and a next one, the first and the last are handed on, as they are without the others. -/
theorem replay_protection_mixed :
    let l := (Link.new 1 64).bind ⟨⟨List.replicate 16 7, rfl⟩⟩
    let frame (kind session seq : UInt8) : Bytes := [1, kind, 1] ++ List.replicate 16 session ++
      [0, 0, 0, seq] ++ List.replicate 7 0 ++ [seq]
    let first := frame 4 7 5
    let last := frame 4 7 6
    let turns : List Turn := .receive (.data (Frame.stream [first, first, frame 4 8 9,
      frame 99 7 9, frame 4 7 3, last])) :: List.replicate 6 (.receive .notReady)
    let turns' : List Turn := .receive (.data (Frame.stream [first, last])) ::
      .prepare (.heartbeat 1) :: List.replicate 2 (.receive .notReady)
    let s := l.receipt.run turns
    let t := l.receipt.run turns'
    messages s.taken = [.heartbeat 5, .heartbeat 6] ∧ t.taken.map (·.1) = kept s.taken ∧
      messages t.taken = messages s.taken := by
  intro l frame first last turns turns' s t
  have hkept : t.taken.map (·.1) = kept s.taken := by decide +kernel
  obtain ⟨-, -, -, -, -, hdeleted⟩ := replay_protection l turns
  exact ⟨by decide +kernel, hkept, (hdeleted l turns' rfl rfl hkept).1⟩

end DeskLink.Link
