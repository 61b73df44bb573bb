import Mathlib.Data.List.Chain
import DeskLink.Client.Reconnection
import DeskLink.Proofs.Checked
import DeskLink.Proofs.Client.Doubling

/-!
# The schedule of a reconnection

A `Course` is a reconnection that nobody cancels, with a log of what it asked for, what came of it,
and what it reported. The log stands with the latest entry first, so that what came before an entry
is the rest of the list. How often in a row the connection has been lost is read off the answers in
it (`losses`).

Everything that a reconnection decides, it decides upon an answer, and `Reaction` lists what it can
decide by the number of losses alone. Between answers it only asks, waits and asks again. `Leads`
says which logs this makes possible, and that every course has such a log is the invariant `Sound`.

The losses are counted in a word of 32 bits, and the count stops at the greatest one. With a limit
it gives up before that. Without one, the losses after it are all announced by the same number
(`schedule_runs_out_of_numbers`).
-/

namespace DeskLink

private theorem Failure.retryable_iff {why : Failure} :
    why.retryable = true ↔ ∃ detail, why = .lost detail := by
  cases why <;> simp [retryable]

namespace Client

open Session (End Ending)

private theorem le_of_beq {x y : Float} (h : (x == y) = true) : x ≤ y := by
  have hcompare : x.toModel.unpack.compare y.toModel.unpack = some .eq := eq_of_beq h
  change decide (x.toModel.unpack.le y.toModel.unpack = true) = true
  rw [Float.Model.UnpackedFloat.le, hcompare]
  rfl

private theorem Backoff.delay_of_beq_zero {p : Backoff} (h : (p.jitter.value == 0.0) = true)
    (attempt : UInt32) (word : UInt64) : p.delay attempt word = p.nominal attempt := by
  rw [delay]
  exact if_pos (le_of_beq h)

namespace Reconnection

/-! ## Answers and losses -/

/-- What comes of a call. -/
inductive Answer where
  | connected (result : Except Failure SessionId)
  | ended (result : Ending)
  deriving DecidableEq

def Answer.failure? : Answer → Option Failure
  | connected (.error why) | ended (.error why) => some why
  | connected (.ok _) | ended (.ok _) => none

/-- What a reconnection asks for, what comes of it, and what it reports. -/
inductive Entry where
  | asked (request : Request)
  | came (now : Instant) (answer : Answer)
  | reported (event : Event)
  deriving DecidableEq

def Entry.event? : Entry → Option Event
  | reported event => some event
  | asked _ | came .. => none

def Entry.isRetry : Entry → Bool
  | reported (.retry ..) => true
  | _ => false

/-- The losses in a row, since a session was last established or since the beginning. -/
def losses : List Entry → Nat
  | [] => 0
  | .came _ (.connected (.ok _)) :: _ => 0
  | .came _ (.connected (.error _)) :: earlier => losses earlier + 1
  | .came _ (.ended (.error _)) :: earlier => losses earlier + 1
  | .came _ (.ended (.ok _)) :: earlier => losses earlier
  | .asked _ :: earlier => losses earlier
  | .reported _ :: earlier => losses earlier

/-- Every lost connection is announced as lost, and then a retry by the number of the losses. -/
def Counted (log : List Entry) : Prop :=
  ∀ later now answer earlier, log = later ++ .came now answer :: earlier →
    ∀ detail, answer.failure? = some (.lost detail) →
      ∃ delay, [.reported (.retry (losses earlier + 1) delay),
        .reported (.lost (.lost detail))] <:+ later

/-- The retries announced since a session was last established or since the beginning. -/
def retries : List Entry → Nat
  | [] => 0
  | .came _ (.connected (.ok _)) :: _ => 0
  | e :: earlier => retries earlier + if e.isRetry then 1 else 0

/-- The number of an attempt, as far as it can be counted. -/
def number (n : Nat) : UInt32 := .ofNat (min n (UInt32.size - 1))

section Log

variable {now : Instant} {answer : Answer} {why : Failure} {events : List Event}
  {log middle earlier : List Entry} {n : Nat}

theorem toNat_number (n : Nat) : (number n).toNat = min n (UInt32.size - 1) := by
  rw [number, UInt32.toNat_ofNat']
  exact Nat.mod_eq_of_lt (by simp only [UInt32.size]; omega)

private theorem filterMap_reported (events : List Event) :
    (events.map Entry.reported).filterMap Entry.event? = events := by
  rw [List.filterMap_map]
  exact List.filterMap_some

theorem losses_reported (events : List Event) (log : List Entry) :
    losses ((events.map Entry.reported).reverse ++ log) = losses log := by
  induction events generalizing log with
  | nil => rfl
  | cons event events ih =>
    rw [List.map_cons, List.reverse_cons, List.append_assoc, ih]
    rfl

theorem losses_failed (h : answer.failure? = some why) :
    losses (.came now answer :: log) = losses log + 1 := by
  rcases answer with (_ | _) | (_ | _) <;> first | rfl | nomatch h

theorem retries_came_le (now : Instant) (answer : Answer) (log : List Entry) :
    retries (.came now answer :: log) ≤ retries log := by
  rcases answer with (_ | _) | (_ | _) <;> first | exact Nat.zero_le _ | exact Nat.le_refl _

/-- Retries count towards the present ones as long as no session was established after them. -/
theorem countP_isRetry_le_retries (h : ∀ now id, .came now (.connected (.ok id)) ∉ middle) :
    middle.countP Entry.isRetry ≤ retries (middle ++ earlier) := by
  induction middle with
  | nil => exact Nat.zero_le _
  | cons e middle ih =>
    have hrest := ih fun now id hmem ↦ h now id (List.mem_cons_of_mem _ hmem)
    have hretries : retries (e :: (middle ++ earlier)) =
        retries (middle ++ earlier) + if e.isRetry then 1 else 0 := by
      rcases e with _ | ⟨now, (_ | id) | _⟩ | _ <;>
        first | rfl | exact absurd List.mem_cons_self (h now id)
    rw [List.cons_append, hretries, List.countP_cons]
    exact Nat.add_le_add_right hrest _

/-- At no time were there more retries since a session was last established. -/
def Within (limit : Nat) (log : List Entry) : Prop :=
  ∀ then_, then_ <:+ log → retries then_ ≤ limit

private theorem within_nil (limit : Nat) : Within limit [] := by
  intro then_ hthen
  rw [List.suffix_nil.mp hthen]
  exact Nat.zero_le _

theorem Within.retries_le {limit : Nat} (h : Within limit log) : retries log ≤ limit :=
  h log (List.suffix_refl _)

theorem Within.cons {limit : Nat} {e : Entry} (h : Within limit log)
    (hnow : retries (e :: log) ≤ limit) : Within limit (e :: log) := by
  intro then_ hthen
  rcases List.suffix_cons_iff.mp hthen with rfl | hthen
  · exact hnow
  · exact h then_ hthen

end Log

/-! ## What a reconnection does -/

/-- Waits for the answer to a call. -/
def Phase.Awaits : Phase → Prop
  | .connecting | .watching _ => True
  | _ => False

/-- What a reconnection that has lost so many connections in a row does upon an answer: what it
reports, and what it is busy with then. -/
inductive Reaction (p : Backoff) (n : Nat) (now : Instant) :
    Answer → List Event → Phase → Prop where
  | opens (id : SessionId) :
      Reaction p n now (.connected (.ok id)) [.established id] (.watch id)
  | closes (e : End) : Reaction p n now (.ended (.ok e)) [] (.ended (.ok (.closed e)))
  | fails {answer : Answer} {why : Failure} (hfailure : answer.failure? = some why)
      (hfinal : why.retryable = false) : Reaction p n now answer [] (.ended (.error why))
  | retries {answer : Answer} {why : Failure} (word : UInt64)
      (hfailure : answer.failure? = some why) (hlost : why.retryable = true)
      (hlimit : ∀ limit, p.maxAttempts = some limit → n + 1 ≤ limit.toNat) :
      Reaction p n now answer
        [.lost why, .retry (min (n + 1) (UInt32.size - 1)) (p.delay (number (n + 1)) word)]
        (.sleeping (now + p.delay (number (n + 1)) word))
  | givesUp {answer : Answer} {why : Failure} {limit : UInt32}
      (hfailure : answer.failure? = some why) (hlost : why.retryable = true)
      (hlimit : p.maxAttempts = some limit) (hspent : limit.toNat = n) :
      Reaction p n now answer [.lost why, .gaveUp limit.toNat] (.ended (.error why))

variable {p : Backoff} {r r' : Reconnection} {o : Offer} {request : Request} {answer : Answer}
  {why : Failure} {n : Nat}

private theorem Reaction.of_final {now : Instant} {events : List Event} {phase : Phase}
    (h : Reaction p n now answer events phase) (hfailure : answer.failure? = some why)
    (hfinal : ∀ detail, why ≠ .lost detail) : events = [] ∧ phase = .ended (.error why) := by
  cases h with
  | opens | closes => nomatch hfailure
  | fails hother =>
    obtain rfl := Option.some.inj (hother.symm.trans hfailure)
    exact ⟨rfl, rfl⟩
  | retries _ hother hlost | givesUp hother hlost =>
    obtain rfl := Option.some.inj (hother.symm.trans hfailure)
    obtain ⟨detail, rfl⟩ := Failure.retryable_iff.mp hlost
    exact absurd rfl (hfinal detail)

private theorem Reaction.of_lost {now : Instant} {events : List Event} {phase : Phase}
    {detail : String} (h : Reaction p n now answer events phase)
    (hfailure : answer.failure? = some (.lost detail)) :
    (∃ word, (∀ limit, p.maxAttempts = some limit → n + 1 ≤ limit.toNat) ∧
      events = [.lost (.lost detail),
        .retry (min (n + 1) (UInt32.size - 1)) (p.delay (number (n + 1)) word)]) ∨
    ∃ limit, p.maxAttempts = some limit ∧ limit.toNat = n ∧
      events = [.lost (.lost detail), .gaveUp limit.toNat] ∧
      phase = .ended (.error (.lost detail)) := by
  cases h with
  | opens | closes => nomatch hfailure
  | fails hother hfinal =>
    obtain rfl := Option.some.inj (hother.symm.trans hfailure)
    nomatch hfinal
  | retries word hother _ hlimit =>
    obtain rfl := Option.some.inj (hother.symm.trans hfailure)
    exact .inl ⟨word, hlimit, rfl⟩
  | givesUp hother _ hlimit hspent =>
    obtain rfl := Option.some.inj (hother.symm.trans hfailure)
    exact .inr ⟨_, hlimit, hspent, rfl, rfl⟩

def answer? (r : Reconnection) (o : Offer) : Option Answer :=
  match r.phase with
  | .connecting => o.connected.map .connected
  | .watching _ => o.ended.map .ended
  | _ => none

theorem awaits_of_answer? (h : r.answer? o = some answer) : r.phase.Awaits := by
  unfold answer? at h
  split at h
  · rename_i hphase
    rw [hphase]
    trivial
  · rename_i hphase
    rw [hphase]
    trivial
  · nomatch h

/-- What a move of a reconnection that is not cancelled can be. -/
inductive Advances (r : Reconnection) (o : Offer) : Reconnection → Request → Prop where
  | asks (hphase : r.phase = .connect) : Advances r o { r with phase := .connecting } .connect
  | watches {id : SessionId} (hphase : r.phase = .watch id) :
      Advances r o { r with phase := .watching id } (.watch id)
  | wakes {until_ : Instant} (hphase : r.phase = .sleeping until_) (hdue : until_ ≤ o.now) :
      Advances r o { r with phase := .connect } .nothing
  | opens {id : SessionId} (hanswer : r.answer? o = some (.connected (.ok id))) :
      Advances r o ({ r with attempt := 0, phase := .watch id }.report (.established id)) .nothing
  | closes {e : End} (hanswer : r.answer? o = some (.ended (.ok e))) :
      Advances r o (r.stop (.ok (.closed e))) .nothing
  | recovers {answer : Answer} {why : Failure} (hanswer : r.answer? o = some answer)
      (hfailure : answer.failure? = some why) :
      Advances r o (r.recover why o.now o.word) .nothing

private theorem advances_of_step (h : r.step o = some (r', request)) (hlive : o.cancelled = false) :
    r.Advances o r' request := by
  cases hphase : r.phase with
  | connect =>
    simp only [step, hphase, hlive, proceed] at h
    obtain ⟨rfl, rfl⟩ := Prod.mk.inj (Option.some.inj h)
    exact .asks hphase
  | connecting =>
    simp only [step, hphase, hlive, proceed] at h
    obtain ⟨result, hresult, heq⟩ := Option.map_eq_some_iff.mp h
    have hanswer : r.answer? o = some (.connected result) := by simp [answer?, hphase, hresult]
    cases result with
    | ok id =>
      obtain ⟨rfl, rfl⟩ := Prod.mk.inj heq
      exact .opens hanswer
    | error why =>
      obtain ⟨rfl, rfl⟩ := Prod.mk.inj heq
      exact .recovers hanswer rfl
  | watch id =>
    simp only [step, hphase, hlive, proceed] at h
    obtain ⟨rfl, rfl⟩ := Prod.mk.inj (Option.some.inj h)
    exact .watches hphase
  | watching id =>
    simp only [step, hphase, hlive, proceed] at h
    obtain ⟨result, hresult, heq⟩ := Option.map_eq_some_iff.mp h
    have hanswer : r.answer? o = some (.ended result) := by simp [answer?, hphase, hresult]
    cases result with
    | ok e =>
      obtain ⟨rfl, rfl⟩ := Prod.mk.inj heq
      exact .closes hanswer
    | error why =>
      obtain ⟨rfl, rfl⟩ := Prod.mk.inj heq
      exact .recovers hanswer rfl
  | sleeping until_ =>
    simp only [step, hphase, hlive, proceed] at h
    obtain ⟨hdue, heq⟩ := Option.ite_none_right_eq_some.mp h
    obtain ⟨rfl, rfl⟩ := Prod.mk.inj (Option.some.inj heq)
    exact .wakes hphase hdue
  | ended result => simp [step, hphase] at h

private theorem result?_eq_none : r.result? = none ↔ ∀ result, r.phase ≠ .ended result := by
  rw [result?]
  cases r.phase <;> simp

theorem nextAttempt_eq (h : r.attempt = number n) : r.nextAttempt = number (n + 1) := by
  rw [← UInt32.toNat_inj, toNat_number, nextAttempt, h, toNat_number]
  split
  · rw [UInt32.toNat_add, toNat_number]
    simp only [UInt32.size, UInt32.toNat_one] at *
    omega
  · rw [toNat_number]
    omega

/-- It has made one attempt too many when there were more losses than the limit. -/
theorem spent_number {limit : UInt32} (hlimit : r.policy.maxAttempts = some limit)
    (hsize : limit.toNat + 1 < UInt32.size) :
    r.spent (number n) = true ↔ limit.toNat < n := by
  rw [spent, hlimit]
  dsimp only
  rw [decide_eq_true_iff, UInt32.lt_iff_toNat_lt, toNat_number]
  omega

private theorem recover_of_unlimited (hpolicy : r.policy = p) (hnone : p.maxAttempts = none)
    (hattempt : r.attempt = number n) (detail : String) (now : Instant) (word : UInt64) :
    r.recover (.lost detail) now word = { r with
      attempt := number (n + 1)
      phase := .sleeping (now + p.delay (number (n + 1)) word)
      events := r.events ++ [.lost (.lost detail),
        .retry (min (n + 1) (UInt32.size - 1)) (p.delay (number (n + 1)) word)] } := by
  subst hpolicy
  rw [recover, nextAttempt_eq hattempt, ← toNat_number]
  simp [Failure.retryable, spent, hnone, report]

private theorem reaction_recover (hpolicy : r.policy = p) (hattempt : r.attempt = number n)
    (hsize : ∀ limit, p.maxAttempts = some limit → limit.toNat + 1 < UInt32.size)
    (hlosses : ∀ limit, p.maxAttempts = some limit → n ≤ limit.toNat)
    (hfailure : answer.failure? = some why) (now : Instant) (word : UInt64) :
    ∃ events, Reaction p n now answer events (r.recover why now word).phase ∧
      (r.recover why now word).policy = p ∧
      (r.recover why now word).events = r.events ++ events ∧
      ((r.recover why now word).result? = none →
        (r.recover why now word).attempt = number (n + 1)) := by
  subst hpolicy
  rw [recover, nextAttempt_eq hattempt]
  split
  · rename_i hlost
    dsimp only
    split
    · rename_i hspent
      cases hlimit : r.policy.maxAttempts with
      | none => simp [spent, report, hlimit] at hspent
      | some limit =>
        have hspent : limit.toNat < n + 1 :=
          (spent_number (r := report { r with attempt := number (n + 1) } (.lost why)) hlimit
            (hsize limit hlimit)).mp hspent
        -- So far the losses were within the limit, so this one is the first beyond it.
        have hn : limit.toNat = n :=
          Nat.le_antisymm (Nat.le_of_lt_succ hspent) (hlosses limit hlimit)
        have hcount : (number (n + 1)).toNat - 1 = limit.toNat := by
          have := hsize limit hlimit
          rw [toNat_number]
          omega
        rw [hcount]
        exact ⟨_, .givesUp hfailure hlost hlimit hn, rfl, List.append_assoc .., nofun⟩
    · rename_i hspent
      refine ⟨_, .retries word hfailure hlost fun limit hlimit ↦ ?_, rfl, ?_, fun _ ↦ rfl⟩
      · have hle := mt (spent_number
          (r := report { r with attempt := number (n + 1) } (.lost why)) hlimit
          (hsize limit hlimit)).mpr hspent
        exact Nat.le_of_not_lt hle
      · rw [← toNat_number]
        exact List.append_assoc ..
  · rename_i hfinal
    exact ⟨[], .fails hfailure (eq_false_of_ne_true hfinal), rfl, (List.append_nil _).symm, nofun⟩

/-! ## Logs -/

/-- A reconnection with these times that has this log can be busy with this. -/
inductive Leads (p : Backoff) : List Entry → Phase → Prop where
  | start : Leads p [] .connect
  | asks {log : List Entry} (hearlier : Leads p log .connect) :
      Leads p (.asked .connect :: log) .connecting
  | watches {log : List Entry} {id : SessionId} (hearlier : Leads p log (.watch id)) :
      Leads p (.asked (.watch id) :: log) (.watching id)
  | wakes {log : List Entry} {until_ : Instant} (hearlier : Leads p log (.sleeping until_)) :
      Leads p log .connect
  | reacts {log : List Entry} {phase phase' : Phase} {now : Instant} {answer : Answer}
      {events : List Event} (hearlier : Leads p log phase) (hawaits : phase.Awaits)
      (hreaction : Reaction p (losses log) now answer events phase') :
      Leads p ((events.map Entry.reported).reverse ++ .came now answer :: log) phase'

/-- What can come directly after an entry. -/
inductive Follows : Entry → Entry → Prop where
  | connects {attempt : Nat} {delay : Duration} :
      Follows (.asked .connect) (.reported (.retry attempt delay))
  | watches {id : SessionId} : Follows (.asked (.watch id)) (.reported (.established id))
  | answers {now : Instant} {answer : Answer} {request : Request} :
      Follows (.came now answer) (.asked request)
  | opens {now : Instant} {id : SessionId} :
      Follows (.reported (.established id)) (.came now (.connected (.ok id)))
  | loses {now : Instant} {answer : Answer} {why : Failure}
      (hfailure : answer.failure? = some why) :
      Follows (.reported (.lost why)) (.came now answer)
  | retries {attempt : Nat} {delay : Duration} {why : Failure} :
      Follows (.reported (.retry attempt delay)) (.reported (.lost why))
  | givesUp {attempts : Nat} {why : Failure} :
      Follows (.reported (.gaveUp attempts)) (.reported (.lost why))

/-- What stands on top of the log while it is busy with this. -/
def Phase.Tops (log : List Entry) : Phase → Prop
  | .connect => log = [] ∨ ∃ attempt delay earlier,
      log = .reported (.retry attempt delay) :: earlier
  | .connecting => ∃ earlier, log = .asked .connect :: earlier
  | .watch id => ∃ earlier, log = .reported (.established id) :: earlier
  | .watching id => ∃ earlier, log = .asked (.watch id) :: earlier
  | .sleeping until_ => ∃ attempt delay why now answer earlier,
      log = .reported (.retry attempt delay) :: .reported (.lost why) ::
        .came now answer :: earlier ∧ until_ = now + delay
  | .ended _ => True

namespace Leads

variable {log later middle earlier : List Entry} {phase : Phase} {now : Instant}

/-- What follows an answer in the log is what it called for, and then nothing more if this was the
end. -/
theorem reaction (h : Leads p log phase) (hlog : log = later ++ .came now answer :: earlier) :
    ∃ events phase', Reaction p (losses earlier) now answer events phase' ∧
      (events.map Entry.reported).reverse <:+ later ∧
      ∀ result, phase' = .ended result →
        later = (events.map Entry.reported).reverse ∧ phase = .ended result := by
  induction h generalizing later with
  | start => simp at hlog
  | asks _ ih | watches _ ih =>
    cases later with
    | nil => nomatch (List.cons.inj hlog).1
    | cons e later =>
      obtain ⟨events, phase', hreaction, hsuffix, hended⟩ := ih (List.cons.inj hlog).2
      exact ⟨events, phase', hreaction, hsuffix.trans (List.suffix_cons _ _),
        fun result hresult ↦ nomatch (hended result hresult).2⟩
  | wakes _ ih =>
    obtain ⟨events, phase', hreaction, hsuffix, hended⟩ := ih hlog
    exact ⟨events, phase', hreaction, hsuffix, fun result hresult ↦
      nomatch (hended result hresult).2⟩
  | @reacts log phase phase' now' answer' events hearlier hawaits hreaction ih =>
    -- The answer is the one just reacted to or one before it, since no report is an answer.
    rcases List.append_eq_append_iff.mp hlog with ⟨newer, rfl, hrest⟩ | ⟨rest, hevents, hrest⟩
    · cases newer with
      | nil =>
        obtain ⟨hentry, rfl⟩ := List.cons.inj hrest
        obtain ⟨rfl, rfl⟩ := Entry.came.inj hentry
        exact ⟨events, phase', hreaction, by simp, fun result hresult ↦ ⟨by simp, hresult⟩⟩
      | cons e newer =>
        obtain ⟨events', phase'', hreaction', hsuffix, hended⟩ := ih (List.cons.inj hrest).2
        refine ⟨events', phase'', hreaction', ?_, fun result hresult ↦ ?_⟩
        · exact (hsuffix.trans (List.suffix_cons _ _)).trans (List.suffix_append _ _)
        · rw [(hended result hresult).2] at hawaits
          exact hawaits.elim
    · cases rest with
      | nil =>
        obtain ⟨hentry, rfl⟩ := List.cons.inj hrest
        obtain ⟨rfl, rfl⟩ := Entry.came.inj hentry
        rw [List.append_nil] at hevents
        exact ⟨events, phase', hreaction, hevents ▸ List.suffix_refl _,
          fun result hresult ↦ ⟨hevents.symm, hresult⟩⟩
      | cons e rest =>
        obtain ⟨rfl, -⟩ := List.cons.inj hrest
        have hmem : Entry.came now answer ∈ (events.map Entry.reported).reverse := by
          rw [hevents]
          simp
        simp at hmem

/-! ### Attempts -/

/-- Until it is over, it has not lost more connections in a row than the limit. -/
theorem losses_le {limit : UInt32} (h : Leads p log phase) (hlimit : p.maxAttempts = some limit)
    (hopen : ∀ result, phase ≠ .ended result) : losses log ≤ limit.toNat := by
  induction h with
  | start => exact Nat.zero_le _
  | asks _ ih | watches _ ih | wakes _ ih => exact ih nofun
  | reacts _ _ hreaction =>
    rw [losses_reported]
    cases hreaction with
    | opens => exact Nat.zero_le _
    | closes | fails | givesUp => exact absurd rfl (hopen _)
    | retries _ hfailure _ hle => exact losses_failed hfailure ▸ hle limit hlimit

/-- Every retry answers a loss. -/
theorem retries_le_losses (h : Leads p log phase) : retries log ≤ losses log := by
  induction h with
  | start => exact Nat.le_refl _
  | asks _ ih | watches _ ih | wakes _ ih => exact ih
  | @reacts log _ _ now answer _ _ _ hreaction ih =>
    have hcame := Nat.le_trans (retries_came_le now answer log) ih
    rw [losses_reported]
    cases hreaction with
    | opens => exact Nat.le_refl _
    | closes => exact hcame
    | fails hfailure | givesUp hfailure =>
      rw [losses_failed hfailure]
      exact Nat.le_succ_of_le hcame
    | retries _ hfailure =>
      rw [losses_failed hfailure]
      exact Nat.succ_le_succ hcame

/-- At no time there were more retries since the last establishment than the limit. -/
theorem within {limit : UInt32} (h : Leads p log phase) (hlimit : p.maxAttempts = some limit) :
    Within limit.toNat log := by
  induction h with
  | start => exact within_nil _
  | asks _ ih | watches _ ih => exact ih.cons (ih.retries_le)
  | wakes _ ih => exact ih
  | @reacts log _ _ now answer _ hearlier _ hreaction ih =>
    have hle := retries_came_le now answer log
    have hcame := ih.cons (Nat.le_trans hle ih.retries_le)
    cases hreaction with
    | opens => exact hcame.cons (Nat.zero_le _)
    | closes | fails => exact hcame
    | givesUp => exact (hcame.cons hcame.retries_le).cons hcame.retries_le
    | retries _ _ _ hlosses =>
      refine (hcame.cons hcame.retries_le).cons (Nat.le_trans ?_ (hlosses limit hlimit))
      exact Nat.succ_le_succ (Nat.le_trans hle hearlier.retries_le_losses)

/-! ### What follows what -/

theorem tops (h : Leads p log phase) : phase.Tops log := by
  induction h with
  | start => exact .inl rfl
  | asks | watches => exact ⟨_, rfl⟩
  | wakes _ ih =>
    obtain ⟨attempt, delay, why, now, answer, earlier, rfl, -⟩ := ih
    exact .inr ⟨attempt, delay, _, rfl⟩
  | reacts _ _ hreaction =>
    cases hreaction with
    | opens => exact ⟨_, rfl⟩
    | closes | fails | givesUp => trivial
    | retries => exact ⟨_, _, _, _, _, _, rfl, rfl⟩

theorem follows (h : Leads p log phase) : log.IsChain Follows := by
  induction h with
  | start => exact .nil
  | asks hearlier ih =>
    rcases hearlier.tops with rfl | ⟨attempt, delay, earlier, rfl⟩
    · exact .singleton _
    · exact .cons_cons .connects ih
  | watches hearlier ih =>
    obtain ⟨earlier, rfl⟩ := hearlier.tops
    exact .cons_cons .watches ih
  | wakes _ ih => exact ih
  | @reacts log phase _ now answer _ hearlier hawaits hreaction ih =>
    have hcame : List.IsChain Follows (.came now answer :: log) := by
      have htops := hearlier.tops
      cases phase with
      | connecting | watching =>
        obtain ⟨earlier, rfl⟩ := htops
        exact .cons_cons .answers ih
      | _ => exact hawaits.elim
    cases hreaction with
    | opens => exact .cons_cons .opens hcame
    | closes | fails => exact hcame
    | retries _ hfailure => exact .cons_cons .retries (.cons_cons (.loses hfailure) hcame)
    | givesUp hfailure => exact .cons_cons .givesUp (.cons_cons (.loses hfailure) hcame)

theorem follows_of_eq {e e' : Entry} (h : Leads p log phase)
    (hlog : log = later ++ e' :: e :: earlier) : Follows e' e := by
  have hchain := h.follows
  rw [hlog, List.isChain_append_cons_cons] at hchain
  exact hchain.2.1

private theorem asked_of_retry {attempt : Nat} {delay : Duration} (h : Leads p log phase)
    (hlog : log = later ++ .reported (.retry attempt delay) :: earlier) :
    later = [] ∨ [.asked .connect] <:+ later := by
  rcases List.eq_nil_or_concat' later with rfl | ⟨later, e, rfl⟩
  · exact .inl rfl
  · rw [List.append_assoc] at hlog
    have hfollows : Follows e (.reported (.retry attempt delay)) := h.follows_of_eq hlog
    cases hfollows
    exact .inr (List.suffix_append _ _)

/-- A connection is asked for at the beginning and directly after a retry. -/
theorem retry_of_asked (h : Leads p log phase) (hlog : log = later ++ .asked .connect :: earlier) :
    earlier = [] ∨ ∃ attempt delay rest, earlier = .reported (.retry attempt delay) :: rest := by
  cases earlier with
  | nil => exact .inl rfl
  | cons e earlier =>
    have hfollows : Follows (.asked .connect) e := h.follows_of_eq hlog
    cases hfollows
    exact .inr ⟨_, _, _, rfl⟩

/-- Between two sessions there are no more retries than the limit. -/
theorem countP_isRetry_le {limit : UInt32} (h : Leads p log phase)
    (hlimit : p.maxAttempts = some limit) (hlog : log = later ++ middle ++ earlier)
    (hmiddle : ∀ now id, .came now (.connected (.ok id)) ∉ middle) :
    middle.countP Entry.isRetry ≤ limit.toNat := by
  have hsuffix : middle ++ earlier <:+ log := ⟨later, by rw [hlog, List.append_assoc]⟩
  exact Nat.le_trans (countP_isRetry_le_retries hmiddle) (h.within hlimit _ hsuffix)

end Leads

/-! ## Courses -/

/-- A reconnection with what it has asked for, been told and reported. -/
structure Course where
  control : Reconnection
  /-- The latest first. -/
  log : List Entry

/-- What is noted when this is asked for. -/
def Request.entries : Request → List Entry
  | .nothing => []
  | request => [.asked request]

namespace Course

def start (p : Backoff) : Course := ⟨.start p, []⟩

def move (c : Course) (o : Offer) : Course :=
  match c.control.step o with
  | none => c
  | some (control, request) =>
    let reports := control.events.drop c.control.events.length
    let answers := (c.control.answer? o).toList
    ⟨control, request.entries ++ (reports.map .reported).reverse ++ answers.map (.came o.now) ++
      c.log⟩

def moves (c : Course) (os : List Offer) : Course := os.foldl move c

variable {c : Course}

theorem move_of_answer? {control : Reconnection}
    (hstep : c.control.step o = some (control, .nothing))
    (hanswer : c.control.answer? o = some answer) :
    c.move o = ⟨control,
      ((control.events.drop c.control.events.length).map Entry.reported).reverse ++
        .came o.now answer :: c.log⟩ := by
  rw [move, hstep]
  simp [hanswer, Request.entries]

theorem move_of_answer?_eq_none {control : Reconnection}
    (hstep : c.control.step o = some (control, request)) (hanswer : c.control.answer? o = none)
    (hevents : control.events = c.control.events) :
    c.move o = ⟨control, request.entries ++ c.log⟩ := by
  rw [move, hstep]
  simp [hanswer, hevents]

theorem moves_append (c : Course) (os os' : List Offer) :
    c.moves (os ++ os') = (c.moves os).moves os' := List.foldl_append

/-- **The log of a reconnection.** It is one of those that its times make possible, and what the
reconnection remembers can be read off it. -/
structure Sound (p : Backoff) (c : Course) : Prop where
  policy_eq : c.control.policy = p
  attempt_eq : c.control.result? = none → c.control.attempt = number (losses c.log)
  events_eq : c.control.events = c.log.reverse.filterMap Entry.event?
  leads : Leads p c.log c.control.phase

theorem sound_start (p : Backoff) : Sound p (start p) := ⟨rfl, fun _ ↦ rfl, rfl, .start⟩

theorem Sound.reacts {control : Reconnection} {now : Instant} {events : List Event} (h : Sound p c)
    (hawaits : c.control.phase.Awaits)
    (hreaction : Reaction p (losses c.log) now answer events control.phase)
    (hpolicy : control.policy = p) (hevents : control.events = c.control.events ++ events)
    (hattempt : control.result? = none →
      control.attempt = number (losses (.came now answer :: c.log))) :
    Sound p ⟨control, ((control.events.drop c.control.events.length).map Entry.reported).reverse ++
      .came now answer :: c.log⟩ := by
  rw [hevents, List.drop_left]
  refine ⟨hpolicy, fun hresult ↦ ?_, ?_, h.leads.reacts hawaits hreaction⟩
  · rw [hattempt hresult, losses_reported]
  · rw [hevents, h.events_eq, List.reverse_append, List.reverse_reverse, List.reverse_cons,
      List.filterMap_append, List.filterMap_append, filterMap_reported]
    simp [Entry.event?]

theorem Sound.goesOn {phase : Phase} {request : Request} (h : Sound p c)
    (hopen : c.control.result? = none) (hleads : Leads p (request.entries ++ c.log) phase) :
    Sound p ⟨{ c.control with phase }, request.entries ++ c.log⟩ := by
  refine ⟨h.policy_eq, fun _ ↦ ?_, ?_, hleads⟩
  · rw [h.attempt_eq hopen]
    cases request <;> rfl
  · rw [h.events_eq, List.reverse_append, List.filterMap_append]
    cases request <;> simp [Request.entries, Entry.event?]

theorem Sound.move (h : Sound p c)
    (hsize : ∀ limit, p.maxAttempts = some limit → limit.toNat + 1 < UInt32.size)
    (hlive : o.cancelled = false) : Sound p (c.move o) := by
  have hleads := h.leads
  cases hstep : c.control.step o with
  | none => rwa [Course.move, hstep]
  | some moved =>
    obtain ⟨control, request⟩ := moved
    cases advances_of_step hstep hlive with
    | asks hphase | watches hphase | wakes hphase =>
      rw [hphase] at hleads
      rw [move_of_answer?_eq_none hstep (by rw [answer?, hphase]) rfl]
      refine h.goesOn (by rw [result?, hphase]) ?_
      first | exact .asks hleads | exact .watches hleads | exact .wakes hleads
    | opens hanswer =>
      rw [move_of_answer? hstep hanswer]
      exact h.reacts (awaits_of_answer? hanswer) (.opens _) h.policy_eq rfl fun _ ↦ rfl
    | closes hanswer =>
      rw [move_of_answer? hstep hanswer]
      exact h.reacts (awaits_of_answer? hanswer) (.closes _) h.policy_eq (List.append_nil _).symm
        nofun
    | recovers hanswer hfailure =>
      have hawaits := awaits_of_answer? hanswer
      have hopen : ∀ result, c.control.phase ≠ .ended result := fun result hphase ↦ by
        rw [hphase] at hawaits
        exact hawaits.elim
      obtain ⟨events, hreaction, hpolicy, hevents, hattempt⟩ :=
        reaction_recover h.policy_eq (h.attempt_eq (result?_eq_none.mpr hopen)) hsize
          (fun limit hlimit ↦ h.leads.losses_le hlimit hopen) hfailure o.now o.word
      rw [move_of_answer? hstep hanswer]
      refine h.reacts hawaits hreaction hpolicy hevents fun hresult ↦ ?_
      rw [losses_failed hfailure]
      exact hattempt hresult

theorem Sound.moves (h : Sound p c)
    (hsize : ∀ limit, p.maxAttempts = some limit → limit.toNat + 1 < UInt32.size)
    {os : List Offer} (hlive : ∀ o ∈ os, o.cancelled = false) : Sound p (c.moves os) := by
  induction os generalizing c with
  | nil => exact h
  | cons o os ih =>
    exact ih (h.move hsize (hlive o List.mem_cons_self)) fun o' ho ↦
      hlive o' (List.mem_cons_of_mem _ ho)

/-- It stands still only while a call has no answer, until a wait that was reported is over, and
when it has ended. -/
theorem Sound.waits (h : Sound p c) (hlive : o.cancelled = false)
    (hstep : c.control.step o = none) :
    (∃ result, c.control.result? = some result) ∨
    (∃ earlier, c.log = .asked .connect :: earlier ∧ o.connected = none) ∨
    (∃ id earlier, c.log = .asked (.watch id) :: earlier ∧ o.ended = none) ∨
    ∃ attempt delay why now answer earlier,
      c.log = .reported (.retry attempt delay) :: .reported (.lost why) :: .came now answer ::
        earlier ∧ o.now < now + delay := by
  have hleads := h.leads
  cases hphase : c.control.phase with
  | connect | watch => simp [step, hphase, hlive, proceed] at hstep
  | connecting =>
    rw [hphase] at hleads
    obtain ⟨earlier, hlog⟩ := hleads.tops
    exact .inr (.inl ⟨earlier, hlog, by simpa [step, hphase, hlive, proceed] using hstep⟩)
  | watching id =>
    rw [hphase] at hleads
    obtain ⟨earlier, hlog⟩ := hleads.tops
    exact .inr (.inr (.inl ⟨id, earlier, hlog,
      by simpa [step, hphase, hlive, proceed] using hstep⟩))
  | sleeping until_ =>
    rw [hphase] at hleads
    obtain ⟨attempt, delay, why, now, answer, earlier, hlog, rfl⟩ := hleads.tops
    exact .inr (.inr (.inr ⟨attempt, delay, why, now, answer, earlier, hlog,
      by simpa [step, hphase, hlive, proceed] using hstep⟩))
  | ended result => exact .inl ⟨result, by rw [result?, hphase]⟩

/-! ### One loss after the other -/

/-- A connection is asked for and refused at one instant, and nothing else happens until the
next. -/
def refusal (now next : Instant) : List Offer :=
  [⟨now, false, none, none, 0⟩, ⟨now, false, some (.error (.lost "refused")), none, 0⟩,
    ⟨next, false, none, none, 0⟩]

/-- So many refusals, with this time after each of them. -/
def refusals (cap : Duration) (n : Nat) : List Offer :=
  (List.range n).flatMap fun i ↦ refusal (i * cap) (i * cap + cap)

theorem refusals_succ (cap : Duration) (n : Nat) :
    refusals cap (n + 1) = refusals cap n ++ refusal (n * cap) (n * cap + cap) := by
  rw [refusals, refusals, List.range_succ, List.flatMap_append, List.flatMap_singleton]

theorem cancelled_of_mem_refusals {cap : Duration} (h : o ∈ refusals cap n) :
    o.cancelled = false := by
  obtain ⟨i, -, ho⟩ := List.mem_flatMap.mp h
  simp only [refusal, List.mem_cons, List.not_mem_nil, or_false] at ho
  rcases ho with rfl | rfl | rfl <;> rfl

private theorem move_asks (hphase : c.control.phase = .connect) (hlive : o.cancelled = false) :
    c.move o = ⟨{ c.control with phase := .connecting }, .asked .connect :: c.log⟩ := by
  have hstep : c.control.step o = some ({ c.control with phase := .connecting }, .connect) := by
    simp [step, hphase, hlive, proceed]
  exact move_of_answer?_eq_none hstep (by rw [answer?, hphase]) rfl

private theorem move_wakes {until_ : Instant} (hphase : c.control.phase = .sleeping until_)
    (hlive : o.cancelled = false) (hdue : until_ ≤ o.now) :
    c.move o = ⟨{ c.control with phase := .connect }, c.log⟩ := by
  have hstep : c.control.step o = some ({ c.control with phase := .connect }, .nothing) := by
    simp [step, hphase, hlive, proceed, hdue]
  exact move_of_answer?_eq_none hstep (by rw [answer?, hphase]) rfl

/-- Without a limit, a refusal is announced by the number of the losses as far as that can be
counted, and then a wait begins. -/
theorem move_refused {n : Nat} {detail : String} (hpolicy : c.control.policy = p)
    (hnone : p.maxAttempts = none) (hattempt : c.control.attempt = number n)
    (hphase : c.control.phase = .connecting) (hlive : o.cancelled = false)
    (hanswer : o.connected = some (.error (.lost detail))) :
    let delay := p.delay (number (n + 1)) o.word
    (c.move o).control.phase = .sleeping (o.now + delay) ∧
      (c.move o).log = [.reported (.retry (min (n + 1) (UInt32.size - 1)) delay),
        .reported (.lost (.lost detail))] ++
          .came o.now (.connected (.error (.lost detail))) :: c.log := by
  intro delay
  have hstep : c.control.step o =
      some (c.control.recover (.lost detail) o.now o.word, .nothing) := by
    simp [step, hphase, hlive, proceed, hanswer]
  have hcame : c.control.answer? o = some (.connected (.error (.lost detail))) := by
    simp [answer?, hphase, hanswer]
  rw [move_of_answer? hstep hcame, recover_of_unlimited hpolicy hnone hattempt, List.drop_left]
  exact ⟨rfl, rfl⟩

/-- Without a limit it is about to ask again when the wait after a refusal is over. -/
theorem Sound.refused {now next : Instant} (h : Sound p c) (hnone : p.maxAttempts = none)
    (hphase : c.control.phase = .connect) (hnext : now + Duration.ofMillis p.maxMs.toNat ≤ next) :
    (c.moves (refusal now next)).control.phase = .connect ∧
      ∃ delay, (c.moves (refusal now next)).log =
        [.reported (.retry (min (losses c.log + 1) (UInt32.size - 1)) delay),
          .reported (.lost (.lost "refused"))] ++
          .came now (.connected (.error (.lost "refused"))) :: .asked .connect :: c.log := by
  have hattempt := h.attempt_eq (by rw [result?, hphase])
  simp only [refusal, Course.moves, List.foldl_cons, List.foldl_nil]
  rw [move_asks hphase rfl]
  set asked : Course := ⟨{ c.control with phase := .connecting }, .asked .connect :: c.log⟩
  set refused : Offer := ⟨now, false, some (.error (.lost "refused")), none, 0⟩
  have hanswer : refused.connected = some (.error (.lost "refused")) := rfl
  obtain ⟨hsleeping, hlog⟩ :=
    move_refused (c := asked) h.policy_eq hnone hattempt rfl rfl hanswer
  have hdue : now + p.delay (number (losses c.log + 1)) 0 ≤ next :=
    Nat.le_trans (Nat.add_le_add_left (p.delay_le _ _) _) hnext
  rw [move_wakes hsleeping rfl hdue]
  exact ⟨rfl, _, hlog⟩

section Refusals

variable {cap : Duration}

theorem sound_refusals (hnone : p.maxAttempts = none) (cap : Duration) (n : Nat) :
    Sound p ((start p).moves (refusals cap n)) :=
  (sound_start p).moves (fun _ hlimit ↦ nomatch hnone.symm.trans hlimit)
    fun _ ↦ cancelled_of_mem_refusals

/-- After so many refusals there have been so many losses in a row. -/
theorem losses_refusals (hnone : p.maxAttempts = none)
    (hcap : Duration.ofMillis p.maxMs.toNat ≤ cap) (n : Nat) :
    ((start p).moves (refusals cap n)).control.phase = .connect ∧
      losses ((start p).moves (refusals cap n)).log = n := by
  induction n with
  | zero => exact ⟨rfl, rfl⟩
  | succ n ih =>
    obtain ⟨hphase, hlosses⟩ := ih
    obtain ⟨hphase', delay, hlog⟩ :=
      (sound_refusals hnone cap n).refused hnone hphase (Nat.add_le_add_left hcap (n * cap))
    rw [refusals_succ, moves_append]
    exact ⟨hphase', by rw [hlog]; exact congrArg Nat.succ hlosses⟩

/-- The losses beyond the greatest number are not announced by theirs. -/
theorem not_counted_refusals (hnone : p.maxAttempts = none)
    (hcap : Duration.ofMillis p.maxMs.toNat ≤ cap) {n : Nat} (hmany : UInt32.size ≤ n + 1) :
    ¬ Counted ((start p).moves (refusals cap (n + 1))).log := by
  intro hcounted
  obtain ⟨hphase, hlosses⟩ := losses_refusals hnone hcap n
  obtain ⟨-, delay, hlog⟩ :=
    (sound_refusals hnone cap n).refused hnone hphase (Nat.add_le_add_left hcap (n * cap))
  rw [← moves_append, ← refusals_succ, hlosses] at hlog
  obtain ⟨delay', hannounced⟩ := hcounted _ _ _ _ hlog "refused" rfl
  have hsame := hannounced.eq_of_length rfl
  obtain ⟨hnumber, -⟩ := Event.retry.inj (Entry.reported.inj (List.cons.inj hsame).1)
  have hcount : losses (.asked .connect :: ((start p).moves (refusals cap n)).log) = n := hlosses
  omega

end Refusals

end Course

/-! ## The schedule -/

/-- **The schedule of a reconnection.** A reconnection that nobody cancels announces a session that
it gets. A graceful end of a session ends it, as does any failure but a lost connection, at once and
without another report. Upon a lost connection it reports the loss and then the retry with the
number of losses in a row, as far as that can be counted, after the wait that is planned for this
number; but when there were more of them than the limit, it reports that it gives up, and ends with
this failure. Directly after each retry it asks for a connection, and it asks for none otherwise but
the first. Between two sessions there are no more retries than the limit. Nothing but this is
reported, and it stands still only while a call has no answer, until an announced wait is over, and
when it has ended. -/
theorem schedule (p : Backoff)
    (hlimit : ∀ limit, p.maxAttempts = some limit → limit.toNat < UInt32.size - 1)
    (offers : List Offer) (hlive : ∀ o ∈ offers, o.cancelled = false) :
    let c := (Course.start p).moves offers
    (∀ later now answer earlier, c.log = later ++ .came now answer :: earlier →
      let k := losses earlier + 1
      (∀ id, answer = .connected (.ok id) → [.reported (.established id)] <:+ later) ∧
      (∀ e, answer = .ended (.ok e) →
        later = [] ∧ c.control.result? = some (.ok (.closed e))) ∧
      (∀ why, answer.failure? = some why → (∀ detail, why ≠ .lost detail) →
        later = [] ∧ c.control.result? = some (.error why)) ∧
      ∀ detail, answer.failure? = some (.lost detail) →
        ((∀ limit, p.maxAttempts = some limit → k ≤ limit.toNat) →
          ∃ delay, (∃ word, delay = p.delay (number k) word) ∧
            ((p.jitter.value == 0.0) = true → delay = p.nominal (number k)) ∧
            [.reported (.retry (min k (UInt32.size - 1)) delay),
              .reported (.lost (.lost detail))] <:+ later) ∧
        ∀ limit, p.maxAttempts = some limit → limit.toNat < k →
          later = [.reported (.gaveUp limit.toNat), .reported (.lost (.lost detail))] ∧
          c.control.result? = some (.error (.lost detail))) ∧
    (∀ later attempt delay earlier,
      c.log = later ++ .reported (.retry attempt delay) :: earlier →
        later = [] ∨ [.asked .connect] <:+ later) ∧
    (∀ later earlier, c.log = later ++ .asked .connect :: earlier →
      earlier = [] ∨ ∃ attempt delay rest, earlier = .reported (.retry attempt delay) :: rest) ∧
    (∀ limit, p.maxAttempts = some limit →
      ∀ later middle earlier, c.log = later ++ middle ++ earlier →
        (∀ now id, .came now (.connected (.ok id)) ∉ middle) →
          middle.countP Entry.isRetry ≤ limit.toNat) ∧
    c.control.events = c.log.reverse.filterMap Entry.event? ∧ c.log.IsChain Follows ∧
    ∀ o, o.cancelled = false → c.control.step o = none →
      (∃ result, c.control.result? = some result) ∨
      (∃ earlier, c.log = .asked .connect :: earlier ∧ o.connected = none) ∨
      (∃ id earlier, c.log = .asked (.watch id) :: earlier ∧ o.ended = none) ∨
      ∃ attempt delay why now answer earlier,
        c.log = .reported (.retry attempt delay) :: .reported (.lost why) :: .came now answer ::
          earlier ∧ o.now < now + delay := by
  intro c
  have hsize : ∀ limit, p.maxAttempts = some limit → limit.toNat + 1 < UInt32.size :=
    fun limit hlimited ↦ Nat.add_lt_of_lt_sub (hlimit limit hlimited)
  have hsound : c.Sound p := (Course.sound_start p).moves hsize hlive
  refine ⟨fun later now answer earlier hlog ↦ ?_, fun _ _ _ _ ↦ hsound.leads.asked_of_retry,
    fun _ _ ↦ hsound.leads.retry_of_asked,
    fun _ hlimited _ _ _ ↦ hsound.leads.countP_isRetry_le hlimited, hsound.events_eq,
    hsound.leads.follows, fun o ↦ hsound.waits⟩
  · obtain ⟨events, phase, hreaction, hsuffix, hended⟩ := hsound.leads.reaction hlog
    have hresult : ∀ result, c.control.phase = .ended result → c.control.result? = some result :=
      fun result hphase ↦ by rw [result?, hphase]
    refine ⟨?_, ?_, fun why hfailure hfinal ↦ ?_, fun detail hfailure ↦ ?_⟩
    · rintro id rfl
      cases hreaction with
      | opens => exact hsuffix
      | fails h | retries _ h | givesUp h => nomatch h
    · rintro e rfl
      cases hreaction with
      | closes =>
        obtain ⟨hlater, hphase⟩ := hended _ rfl
        exact ⟨hlater, hresult _ hphase⟩
      | fails h | retries _ h | givesUp h => nomatch h
    · obtain ⟨rfl, rfl⟩ := hreaction.of_final hfailure hfinal
      obtain ⟨hlater, hphase⟩ := hended _ rfl
      exact ⟨hlater, hresult _ hphase⟩
    · rcases hreaction.of_lost hfailure with
        ⟨word, hle, rfl⟩ | ⟨limit, hlimited, hspent, rfl, rfl⟩
      · refine ⟨fun _ ↦ ⟨_, ⟨word, rfl⟩, fun h ↦ Backoff.delay_of_beq_zero h _ word, hsuffix⟩,
          fun limit hlimited hlt ↦ ?_⟩
        exact absurd hlt (Nat.not_lt.mpr (hle limit hlimited))
      · obtain ⟨hlater, hphase⟩ := hended _ rfl
        refine ⟨fun hle ↦ ?_, fun other hother _ ↦ ?_⟩
        · exact absurd (hspent ▸ hle limit hlimited) (Nat.not_succ_le_self _)
        · obtain rfl := Option.some.inj (hlimited.symm.trans hother)
          exact ⟨hlater, hresult _ hphase⟩

/-- A single retry is allowed. It is used up, a session is established, and then two connections in
a row are lost. -/
theorem schedule_spent :
    let id : SessionId := ⟨⟨List.replicate 16 7, rfl⟩⟩
    let p : Backoff := ⟨250, 5000, ⟨0⟩, some 1⟩
    let offers : List Offer := [
      ⟨0, false, none, none, 0⟩, ⟨1, false, some (.error (.lost "refused")), none, 0⟩,
      ⟨250000001, false, none, none, 0⟩, ⟨250000001, false, none, none, 0⟩,
      ⟨250000002, false, some (.ok id), none, 0⟩, ⟨250000002, false, none, none, 0⟩,
      ⟨250000003, false, none, some (.error (.lost "reset")), 0⟩,
      ⟨500000003, false, none, none, 0⟩, ⟨500000003, false, none, none, 0⟩,
      ⟨500000004, false, some (.error (.lost "refused")), none, 0⟩]
    let c := (Course.start p).moves offers
    (∀ limit, p.maxAttempts = some limit → limit.toNat < UInt32.size - 1) ∧
    (∀ o ∈ offers, o.cancelled = false) ∧
    c.log.take 2 = [.reported (.gaveUp 1), .reported (.lost (.lost "refused"))] := by
  intro id p offers c
  have hlimit : ∀ limit, p.maxAttempts = some limit → limit.toNat < UInt32.size - 1 := by
    rintro limit ⟨⟩
    decide
  have hlive : ∀ o ∈ offers, o.cancelled = false := by simp [offers]
  have hlog : c.log = c.log.take 2 ++ .came 500000004 (.connected (.error (.lost "refused"))) ::
      c.log.drop 3 := by
    decide +kernel
  have hupon := (schedule p hlimit offers hlive).1 _ _ _ _ hlog
  exact ⟨hlimit, hlive, ((hupon.2.2.2 _ rfl).2 1 rfl (by decide)).1⟩

/-- A connection is lost as often as the numbers of attempts go, and then once more. No limit is
set, so there is another retry; but it is announced by the greatest number, and not by that of the
losses. -/
theorem schedule_runs_out_of_numbers :
    let p : Backoff := ⟨250, 5000, ⟨0⟩, none⟩
    let offers := Course.refusals (.ofMillis 5000) UInt32.size
    p.check = .ok () ∧ (∀ o ∈ offers, o.cancelled = false) ∧
      ¬ Counted ((Course.start p).moves offers).log := by
  intro p offers
  have hcap : Duration.ofMillis p.maxMs.toNat ≤ .ofMillis 5000 := by decide
  exact ⟨by decide +kernel, fun _ ↦ Course.cancelled_of_mem_refusals,
    Course.not_counted_refusals rfl hcap (Nat.le_refl _)⟩

end Reconnection

end Client

end DeskLink
