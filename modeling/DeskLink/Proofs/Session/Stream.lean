import DeskLink.Proofs.Session.InFlight

/-!
# The stream of a session

What a session writes, looked at without anybody who reads it: frames one after another, each with
an envelope of this session, and at most the last of them broken off.

A send can be given up at any byte, when the stream fails or takes too long, and the farewell has
the same stream. That it is never written behind a broken frame is in `Worker.Speaks`: a frame is
given up only for a failure that nobody is told about.

The letters are counted as for a receiver that has read nothing, so that all of them are still on
their way.
-/

namespace DeskLink.Session

namespace Worker

/-! ## Runs -/

/-- What a worker did with what it was offered, and where it stands then. An offer that it can do
nothing with is passed over. -/
def course (w : Worker) : List Offer → List (Offer × Effect) × Worker
  | [] => ([], w)
  | o :: offers =>
    match w.step o with
    | some (w', effect) => ((o, effect) :: (w'.course offers).1, (w'.course offers).2)
    | none => w.course offers

end Worker

/-- The bytes that were written in these moves. -/
def writtenIn (moves : List (Offer × Effect)) : Bytes := moves.flatMap (·.2.written)

/-- The event that a move took from the queue. -/
def Effect.popped? (o : Offer) : Effect → Option Event
  | .popped => o.event
  | _ => Option.none

/-- The events that were taken from the queue in these moves. -/
def poppedIn (moves : List (Offer × Effect)) : List Event :=
  moves.filterMap fun move ↦ move.2.popped? move.1

@[simp] theorem writtenIn_cons (move : Offer × Effect) (moves : List (Offer × Effect)) :
    writtenIn (move :: moves) = move.2.written ++ writtenIn moves := List.flatMap_cons

@[simp] theorem poppedIn_cons (move : Offer × Effect) (moves : List (Offer × Effect)) :
    poppedIn (move :: moves) = (move.2.popped? move.1).toList ++ poppedIn moves := by
  cases hmove : move.2.popped? move.1 <;> simp [poppedIn, hmove]

def lastFrame (letters : List Letter) : Bytes :=
  (letters.getLast?.map fun x ↦ Frame.wrap x.body).getD []

private theorem lastFrame_concat (letters : List Letter) (x : Letter) :
    lastFrame (letters ++ [x]) = Frame.wrap x.body := by
  simp [lastFrame]

private theorem stream_dropLast (letters : List Letter) : Frame.stream (letters.map (·.body)) =
    Frame.stream (letters.dropLast.map (·.body)) ++ lastFrame letters := by
  rcases letters.eq_nil_or_concat with rfl | ⟨before, x, rfl⟩
  · rfl
  · simp [lastFrame]

/-! ## What has been written -/

/-- A link at the other end that nothing has come to. -/
def untouched (id : SessionId) (first : UInt32) : Link :=
  { Link.new 0 0 with binding := some id, inbound := ⟨first⟩ }

/-- These are the letters that a worker has begun, `first` being the last number before them. What
is missing of them will never be written, and what is lost will never be sent. -/
structure Writes (id : SessionId) (version : UInt8) (first : UInt32) (w : Worker) (written : Bytes)
    (popped : List Event) (letters : List Letter) (missing : Bytes) (lost : List Event) : Prop where
  inFlight : InFlight id w written (untouched id first) letters missing
  version_eq : w.link.version = version
  versions : ∀ x ∈ letters, x.envelope.version = version
  /-- What has not been written is of the last frame. -/
  torn : w.unsent ++ missing <:+ lastFrame letters
  popped_eq : letters.filterMap Letter.event? ++ lost = popped
  lost_eq : w.Running → lost = []

namespace Writes

variable {id : SessionId} {version : UInt8} {first : UInt32} {w w' : Worker} {written : Bytes}
  {popped : List Event} {letters : List Letter} {missing : Bytes} {lost : List Event}

theorem continues {b : Bytes} (h : Writes id version first w written popped letters missing lost)
    (hversion : w'.link.version = w.link.version) (hw : w.Continues b w') :
    Writes id version first w' (written ++ b) popped letters missing lost where
  inFlight := h.inFlight.continues hw
  version_eq := hversion.trans h.version_eq
  versions := h.versions
  torn := by
    have htorn := h.torn
    rw [hw.unsent_eq, List.append_assoc] at htorn
    exact (List.suffix_append b _).trans htorn
  popped_eq := h.popped_eq
  lost_eq hrunning := h.lost_eq (hw.running hrunning)

theorem givesUp (h : Writes id version first w written popped letters missing lost)
    (hunsent : w'.unsent = []) (hintact : ¬ w'.Intact) (hrunning : ¬ w'.Running)
    (hlink : w'.link = w.link) :
    Writes id version first w' written popped letters (w.unsent ++ missing) lost where
  inFlight := h.inFlight.givesUp hunsent hintact hlink
  version_eq := hlink ▸ h.version_eq
  versions := h.versions
  torn := by
    rw [hunsent]
    exact h.torn
  popped_eq := h.popped_eq
  lost_eq hw := absurd hw hrunning

theorem begins {m : Message} (h : Writes id version first w written popped letters missing lost)
    (hversion : w'.link.version = w.link.version) (hw : w.Begins m w')
    (hlost : m.event? ≠ none → lost = []) :
    ∃ x, Writes id version first w' written (popped ++ m.event?.toList) (letters ++ [x]) missing
      lost := by
  obtain ⟨x, hx, hunsent⟩ := Letter.of_begins hw
  have hmissing := h.inFlight.whole hw.intact
  have hevent : x.event? = m.event? := by rw [Letter.event?, hx, Link.envelope]
  refine ⟨x, ?_⟩
  constructor
  · exact h.inFlight.begins_letter hw hx hunsent
  · exact hversion.trans h.version_eq
  · exact List.forall_mem_append.mpr ⟨h.versions, by simpa [hx, Link.envelope] using h.version_eq⟩
  · have hwhole : w'.unsent ++ missing = lastFrame (letters ++ [x]) := by
      rw [lastFrame_concat, hunsent, hmissing, List.append_nil]
    exact ⟨[], hwhole⟩
  · rw [← h.popped_eq, List.filterMap_append, List.filterMap_cons, hevent, List.filterMap_nil]
    cases hm : m.event? with
    | none => simp
    | some e => simp [hlost (by simp [hm])]
  · exact fun hrunning ↦ h.lost_eq (hw.running hrunning)

/-- An event that was taken and cannot be sent is the last one. -/
theorem loses (e : Event) (h : Writes id version first w written popped letters missing lost)
    (hversion : w'.link.version = w.link.version) (hover : ¬ w'.Running)
    (hw : w.Continues [] w') :
    Writes id version first w' written (popped ++ [e]) letters missing (lost ++ [e]) := by
  have hcontinues := h.continues hversion hw
  rw [List.append_nil] at hcontinues
  exact { hcontinues with
    popped_eq := by rw [← List.append_assoc, h.popped_eq]
    lost_eq := fun hrunning ↦ absurd hrunning hover }

/-- **One move keeps the stream whole.** -/
theorem does {o : Offer} {effect : Effect}
    (h : Writes id version first w written popped letters missing lost)
    (hdoes : w.Does o w' effect) :
    ∃ letters missing lost, Writes id version first w' (written ++ effect.written)
      (popped ++ (effect.popped? o).toList) letters missing lost := by
  have hversion := Worker.version_of_does hdoes
  have hspeaks := Worker.speaks_of_does hdoes
  cases hspeaks with
  | continues hqueue hcontinues =>
    have hnone : effect.popped? o = none := by
      cases effect with
      | popped => exact hqueue.elim
      | _ => rfl
    exact ⟨letters, missing, lost, by simpa [hnone] using h.continues hversion hcontinues⟩
  | givesUp hunsent hintact hrunning hlink =>
    have hwrites := h.givesUp hunsent hintact hrunning hlink
    exact ⟨_, _, _, by simpa [Effect.written, Effect.popped?] using hwrites⟩
  | tells hm hbegins =>
    have hnone := Message.event?_eq_none_iff.mpr hm
    obtain ⟨x, hwrites⟩ := h.begins hversion hbegins (absurd hnone)
    exact ⟨_, _, _, by simpa [Effect.written, Effect.popped?, hnone] using hwrites⟩
  | forwards hrunning hevent hbegins =>
    obtain ⟨x, hwrites⟩ := h.begins hversion hbegins fun _ ↦ h.lost_eq hrunning
    exact ⟨_, _, _, by simpa [Effect.written, Effect.popped?, hevent, Message.event?] using hwrites⟩
  | @loses e hover hevent hcontinues =>
    have hwrites := h.loses e hversion hover hcontinues
    exact ⟨_, _, _, by simpa [Effect.written, Effect.popped?, hevent] using hwrites⟩
  | leaves _ hcontinues =>
    have hwrites := h.continues hversion hcontinues
    exact ⟨_, _, _, by simpa [Effect.written, Effect.popped?] using hwrites⟩
  | bids _ hm hbegins =>
    have hnone := Message.event?_eq_none_iff.mpr hm
    obtain ⟨x, hwrites⟩ := h.begins hversion hbegins (absurd hnone)
    exact ⟨_, _, _, by simpa [Effect.written, Effect.popped?, hnone] using hwrites⟩

theorem course (offers : List Offer)
    (h : Writes id version first w written popped letters missing lost) :
    ∃ letters missing lost, Writes id version first (w.course offers).2
      (written ++ writtenIn (w.course offers).1) (popped ++ poppedIn (w.course offers).1) letters
      missing lost := by
  induction offers generalizing w written popped letters missing lost with
  | nil => exact ⟨letters, missing, lost, by simpa [Worker.course, writtenIn, poppedIn] using h⟩
  | cons o offers ih =>
    rw [Worker.course]
    split
    · rename_i w' effect hstep
      obtain ⟨letters, missing, lost, hdone⟩ := h.does (Worker.does_step hstep)
      simpa using ih hdone
    · exact ih h

end Writes

theorem Worker.writes_start {id : SessionId} {link : Link} (hbound : link.binding = some id)
    (session : SessionId) (version : Version) (interval drain : Duration) (now : Instant) :
    Writes id link.version link.outbound.last (start session version interval drain link now)
      [] [] [] [] [] := by
  constructor
  · constructor
    · exact hbound
    · rfl
    · rfl
    · intro _
      rfl
    · intro x hx
      nomatch hx
    · exact .nil
    · intro x hx
      nomatch hx
    · intro x hx
      nomatch hx
    · exact UInt32.le_refl link.outbound.last
  · rfl
  · nofun
  · exact List.suffix_refl _
  · rfl
  · exact fun _ ↦ rfl

/-- **The stream of a session is whole.** Whatever a worker is offered, it writes frames one after
another, of which only the last can be incomplete. Their envelopes name its session and version, the
numbers increase, and the input events are a beginning of those that were taken from the queue, all
of them as long as the session runs. -/
theorem Worker.stream_whole {id : SessionId} {link : Link} (hbound : link.binding = some id)
    (session : SessionId) (version : Version) (interval drain : Duration) (now : Instant)
    (offers : List Offer) :
    let w := Worker.start session version interval drain link now
    let written := writtenIn (w.course offers).1
    let popped := poppedIn (w.course offers).1
    ∃ letters : List Letter,
      (written <+: Frame.stream (letters.map (·.body)) ∧
        Frame.stream (letters.dropLast.map (·.body)) <+: written) ∧
      (∀ x ∈ letters, x.envelope.session = some id ∧ x.envelope.version = link.version ∧
        link.outbound.last < x.envelope.seq) ∧
      (letters.map (·.envelope.seq)).Pairwise (· < ·) ∧
      letters.filterMap Letter.event? <+: popped ∧
      ((w.course offers).2.Running → letters.filterMap Letter.event? = popped) := by
  intro w written popped
  obtain ⟨letters, missing, lost, h⟩ :=
    (Worker.writes_start hbound session version interval drain now).course offers
  rw [List.nil_append, List.nil_append] at h
  have hstream : written ++ ((w.course offers).2.unsent ++ missing) =
      Frame.stream (letters.map (·.body)) := by
    rw [← List.append_assoc]
    exact h.inFlight.stream_eq
  refine ⟨letters, ⟨⟨_, hstream⟩, ?_⟩, fun x hx ↦ ⟨h.inFlight.named x hx, h.versions x hx,
    h.inFlight.fresh x hx⟩, h.inFlight.ordered, ⟨lost, h.popped_eq⟩, ?_⟩
  · -- What is missing at the end is of the last frame, so the others are there.
    obtain ⟨begun, hbegun⟩ := h.torn
    have hsplit : written ++ ((w.course offers).2.unsent ++ missing) =
        Frame.stream (letters.dropLast.map (·.body)) ++ begun
          ++ ((w.course offers).2.unsent ++ missing) := by
      rw [hstream, stream_dropLast, ← hbegun, List.append_assoc]
    exact ⟨begun, (List.append_cancel_right hsplit).symm⟩
  · intro hrunning
    have hpopped := h.popped_eq
    rw [h.lost_eq hrunning, List.append_nil] at hpopped
    exact hpopped

/-- A key is broken off after five bytes, as the other side stops reading, and nothing follows. -/
theorem Worker.stream_whole_broken_off :
    let id : SessionId := ⟨⟨List.replicate 16 7, rfl⟩⟩
    let link := (Link.new 1 1024).bind id
    let key : Event := .key 30 true ⟨0⟩ 5
    let o (now : Instant) (write : WriteReply) : Offer :=
      ⟨now, none, .notReady, write, .finished, true, some key, .accepting⟩
    let offers := [o 0 .notReady, o 1 (.accepts 5), o 2000 .notReady, o 2001 (.accepts 99),
      o 2002 (.accepts 99)]
    link.binding = some id ∧ ∃ moves,
      moves = ((Worker.start id ⟨1, 0⟩ 1000 1000 link 0).course offers).1 ∧
      (writtenIn moves).length = 5 ∧ poppedIn moves = [key] ∧ ∃ letters : List Letter,
        writtenIn moves <+: Frame.stream (letters.map (·.body)) ∧
        letters.filterMap Letter.event? <+: [key] := by
  intro id link key o offers
  have hbound : link.binding = some id := rfl
  obtain ⟨letters, ⟨hwritten, -⟩, -, -, hevents, -⟩ :=
    Worker.stream_whole hbound id ⟨1, 0⟩ 1000 1000 0 offers
  generalize hmoves : ((Worker.start id ⟨1, 0⟩ 1000 1000 link 0).course offers).1 = moves at *
  have hcourse : (writtenIn moves).length = 5 ∧ poppedIn moves = [key] := by
    rw [← hmoves]
    decide +kernel
  obtain ⟨hlength, hpopped⟩ := hcourse
  rw [hpopped] at hevents
  exact ⟨hbound, moves, rfl, hlength, hpopped, letters, hwritten, hevents⟩

end DeskLink.Session
