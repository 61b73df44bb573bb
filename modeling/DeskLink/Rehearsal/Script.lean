import DeskLink.Rehearsal.Peer

/-!
# Scripts for a peer

A script is a list of steps, each of which is an act of the peer or of somebody at the part's side,
or a batch of acts with nothing in between. After each step the part settles and the peer reads;
the `Notes` of the step say what came of it.

A peer remembers the number that it used last, the session that it belongs to and the challenge
that it has seen, and fills them in where an act leaves them out. When it waits for a frame it
goes on reading until one is complete, so that a long frame comes through a narrow connection.
-/

namespace DeskLink.Rehearsal

/-- A message to be written, with the parts of its envelope that are not to be filled in. -/
structure Draft where
  message : Message
  version : UInt8
  seq : Option UInt32
  session : Option (Option SessionId)

/-- One thing that is done. -/
inductive Act where
  | say (d : Draft)
  /-- The answer to the last challenge, by this node with this secret, in an envelope like this. -/
  | respond (node : Uuid) (secret : Secret) (d : Message → Draft)
  | frame (b : Bytes)
  | bytes (b : Bytes)
  | halfClose
  | hangUp
  | waitFrame
  | waitEnd
  | command (reason : CloseReason)
  | dropCommands
  | push (e : Event)
  | disconnect (id : SessionId)
  | status
  | batch (acts : List Act)

/-- Whether time passes until the end, so that heartbeats are no news. -/
def Act.untilEnd : Act → Bool
  | .waitEnd => true
  | .batch acts => acts.any fun a ↦ match a with
    | .waitEnd => true
    | _ => false
  | _ => false

/-- What came of an act. -/
inductive Answer where
  | nothing
  | taken (b : Bool)
  | pushed (r : Except PushError PushOutcome)
  | sent (r : Stage.Sent)
  /-- How disconnecting ended; nothing when it is still under way. -/
  | closed (r : Option (Except Failure Unit))
  | status (s : Client.Status)
  | records (rs : List Record)
  | batch (answers : List Answer)

/-- What came of a step. -/
structure Notes where
  answer : Answer
  /-- What the peer read. -/
  frames : List (Except Envelope.DecodeError Envelope)
  injected : List Event
  progress : List Snapshot
  /-- How many round trips were measured. -/
  latencies : Nat
  /-- The numbers of sessions reported. -/
  active : List Nat
  finished : Bool

/-- A stage and what its peer remembers. -/
structure Play where
  stage : Stage
  seq : UInt32
  session : Option SessionId
  challenge : Nonce
  /-- What the peer has read while it waited, since the last notes. -/
  heard : List (Except Envelope.DecodeError Envelope)

namespace Play

/-- A play that has not begun, with a peer that belongs to this session. -/
def start (stage : Stage) (session : Option SessionId) : Play := ⟨stage, 0, session, .zero, []⟩

/-- The play on another stage. -/
def on (p : Play) (stage : Stage) : Play := { p with stage }

def named (p : Play) : Message → Option SessionId
  | .authResult ⟨_, some id⟩ => some id
  | _ => p.session

/-- The peer writes a message; one that cannot be encoded is left out. -/
def say (p : Play) (d : Draft) : Play :=
  let e : Envelope := ⟨d.version, d.session.getD p.session, d.seq.getD (p.seq + 1), d.message⟩
  match e.encode with
  | .ok b => { p with
      stage := p.stage.write (Frame.wrap b), seq := e.seq, session := p.named d.message }
  | .error _ => p

/-- The peer remembers what it has read. -/
def remember (p : Play) : Except Envelope.DecodeError Envelope → Play
  | .ok e =>
    let p := { p with session := p.named e.message }
    match e.message with
    | .auth (.challenge n) => { p with challenge := n }
    | _ => p
  | .error _ => p

def read (p : Play) : List (Except Envelope.DecodeError Envelope) × Play :=
  let (frames, stage) := p.stage.read
  (frames, frames.foldl remember (p.on stage))

/-- The peer reads and lets time pass, so many times at most, until it has read a frame, or the
part has come to its end or cannot move by itself. -/
def listenWithin : Nat → Play → Play
  | 0, p => p
  | n + 1, p =>
    let stage := p.stage.settle
    let idle := stage.gone || stage.link.outgoing.buffered.isEmpty
    let (frames, p) := (p.on stage).read
    if !frames.isEmpty || stage.finished then { p with heard := p.heard ++ frames }
    else if !idle then listenWithin n p
    else match stage.wakeup? with
      | some t => listenWithin n (p.on { stage with now := max (stage.now + 1) t })
      | none => p

def listen (p : Play) : Play := listenWithin patience p

mutual

def perform (p : Play) : Act → Answer × Play
  | .say d => (.nothing, p.say d)
  | .respond node secret d =>
    (.nothing, p.say (d (.auth (.response (secret.respond p.challenge ⟨node, "", 0⟩)))))
  | .frame b => (.nothing, p.on (p.stage.write (Frame.wrap b)))
  | .bytes b => (.nothing, p.on (p.stage.write b))
  | .halfClose => (.nothing, p.on p.stage.halfClose)
  | .hangUp => (.nothing, p.on p.stage.hangUp)
  | .waitFrame => (.nothing, p.listen)
  | .waitEnd => (.nothing, p.on p.stage.waitEnd)
  | .command reason =>
    let (taken, stage) := p.stage.command reason
    (.taken taken, p.on stage)
  | .dropCommands => (.nothing, p.on p.stage.dropCommands)
  | .push e =>
    match p.stage.part with
    | .guest .. =>
      let (sent, stage) := p.stage.send e
      (.sent sent, p.on stage)
    | _ =>
      let (pushed, stage) := p.stage.push e
      (.pushed pushed, p.on stage)
  | .disconnect id =>
    let (closed, stage) := p.stage.disconnect id
    (.closed closed, p.on stage)
  | .status =>
    match p.stage.part with
    | .guest g _ _ => (.status g.status, p)
    | .host h => (.records h.registry.sessions, p)
    | _ => (.nothing, p)
  | .batch acts =>
    let (answers, p) := p.performAll acts
    (.batch answers, p)

def performAll (p : Play) : List Act → List Answer × Play
  | [] => ([], p)
  | a :: rest =>
    let (answer, p) := p.perform a
    let (answers, p) := p.performAll rest
    (answer :: answers, p)

end

def isBeat : Except Envelope.DecodeError Envelope → Bool
  | .ok e => e.message.kind = .heartbeat
  | .error _ => false

/-- Lets the part settle and the peer read, and takes down what has come of it, with or without
the heartbeats. -/
def takeNotes (p : Play) (answer : Answer) (beats : Bool) : Notes × Play :=
  let (frames, p) := (p.on p.stage.settle).read
  let frames := (p.heard ++ frames).filter fun f ↦ beats || !isBeat f
  let s := p.stage
  let finished := s.finished
  let (injected, latencies, active, part) := match s.part with
    | .host h => (h.journal.injected, h.journal.latencies, h.journal.active,
        Part.host { h with journal := .empty })
    | .guest g a w =>
      (g.injected, g.latencies, [], .guest { g with injected := [], latencies := 0 } a w)
    | part => (s.injected, (s.progress.filter (·.rtt.isSome)).length, [], part)
  (⟨answer, frames, injected, s.progress, latencies, active, finished⟩,
    { p with stage := { s with part, progress := [], injected := [] }, heard := [] })

def step (p : Play) (a : Act) : Notes × Play :=
  let (answer, p) := p.perform a
  p.takeNotes answer !a.untilEnd

/-- Every step, after what the part does unprompted; a script that begins by waiting for the end
leaves no time for that. -/
def run (p : Play) (acts : List Act) : List Notes × Play :=
  let (first, p) := match acts with
    | .waitEnd :: _ => ([], p)
    | _ =>
      let (n, p) := p.takeNotes .nothing true
      ([n], p)
  let (notes, p) := acts.foldl (fun (out, p) a ↦
    let (n, p) := Play.step p a
    (n :: out, p)) ([], p)
  (first ++ notes.reverse, p)

end Play

end DeskLink.Rehearsal
