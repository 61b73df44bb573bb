import DeskLink.Number.Binary
import DeskLink.Session.Heartbeat
import DeskLink.Tuning

/-!
# Backoff

How long to wait before connecting again. The wait doubles with every attempt that is lost in a
row, from a base up to a cap:

    attempt   1     2     3      4      5 ..
    wait    250   500  1000   2000   4000 ..   never more than the cap

A random spread on either side keeps many clients from coming back at the same moment.
-/

namespace DeskLink.Client

/-- The times of a client that connects again. -/
structure Backoff where
  /-- Milliseconds before the first retry. -/
  baseMs : UInt64
  /-- Milliseconds that no wait exceeds. -/
  maxMs : UInt64
  /-- The part of a wait by which it is spread to either side. -/
  jitter : Double
  /-- Attempts in a row after which to give up; none never to. -/
  maxAttempts : Option UInt32

/-- The product, or the greatest number when it does not fit. -/
def saturatingMul (a b : UInt64) : UInt64 :=
  if a.toNat * b.toNat < UInt64.size then a * b else UInt64.ofNat (UInt64.size - 1)

namespace Backoff

def standard : Backoff := ⟨250, 5000, .ofFloat 0.1, none⟩

instance : Inhabited Backoff := ⟨standard⟩

/-- The wait before this retry in milliseconds, without the spread. -/
def nominalMs (p : Backoff) (attempt : UInt32) : UInt64 :=
  let doublings : UInt32 := if attempt = 0 then 0 else min (attempt - 1) 32
  min (saturatingMul p.baseMs (1 <<< doublings.toUInt64)) p.maxMs

/-- The wait before this retry, without the spread. -/
def nominal (p : Backoff) (attempt : UInt32) : Duration := .ofMillis (p.nominalMs attempt).toNat

/-! ## The spread -/

/-- The greatest double below one that is a multiple of `2 ^ -52`. -/
def greatestDraw : Float := 1.0 - 1.0 / 4503599627370496.0

/-- The greatest scale of at most this size that keeps every draw from exceeding `high`. -/
def scaleWithin : Nat → Float → Float → Float → Float
  | 0, scale, _, _ => scale
  | n + 1, scale, low, high =>
    if scale * greatestDraw + low > high then
      scaleWithin n (Float.ofBits (scale.toBits - 1)) low high
    else scale

/-- A double between `-j` and `j`, both included, chosen by a random word. -/
def draw (j : Float) (word : UInt64) : Float :=
  let scale := scaleWithin 64 ((j - -j) / greatestDraw) (-j) j
  (word >>> 12).toFloat * (1.0 / 4503599627370496.0) * scale + -j

/-- A duration in seconds. -/
def seconds (d : Duration) : Float :=
  (UInt64.ofNat (d / 1000000000)).toFloat + (UInt64.ofNat (d % 1000000000)).toFloat / 1000000000.0

/-- The wait before this retry, spread by a random word, and never above the cap. -/
def delay (p : Backoff) (attempt : UInt32) (word : UInt64) : Duration :=
  let nominal := p.nominal attempt
  let jitter := p.jitter.value
  if jitter <= 0.0 then nominal
  else
    let factor := 1.0 + draw jitter word
    let factor := if factor < 0.0 then 0.0 else factor
    min (Float.scaled (factor * seconds nominal) 1000000000) (.ofMillis p.maxMs.toNat)

/-- What is wrong with the times, if anything; the first complaint counts. -/
def check (p : Backoff) : Except InvalidSetting Unit :=
  if p.baseMs = 0 then .error ⟨"base_delay_ms", "must be greater than zero"⟩
  else if p.maxMs < p.baseMs then
    let base := p.baseMs
    .error ⟨"max_delay_ms", s!"must be at least base_delay_ms ({base})"⟩
  else if 0.0 <= p.jitter.value && p.jitter.value < 1.0 then .ok ()
  else .error ⟨"jitter", "must be in 0.0..1.0"⟩

end Backoff

end DeskLink.Client
