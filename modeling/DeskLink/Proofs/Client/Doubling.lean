import Mathlib.Algebra.Group.Nat.Defs
import DeskLink.Client.Backoff
import DeskLink.Proofs.Checked

/-!
# Waits double up to the cap

The wait before a retry is worked out in words of 64 bits. If a product were to lose its upper bits
there, a wait could come out as nothing at all, and a client that has lost its server would come
back at once, again and again. It does not: a product that does not fit becomes the greatest word,
no cap is greater than that, and so the cap takes over as it would from the true product
(`toNat_min_saturatingMul`). After that the waits are whole numbers that double up to a cap
(`doubled`).

There are at most 32 doublings. That tells only where the cap is more than `2 ^ 32` times the base:
there the waits stop growing with attempt 33 and never reach the cap.
-/

namespace DeskLink.Client

/-! ## Words -/

private theorem toNat_saturatingMul (a b : UInt64) :
    (saturatingMul a b).toNat = min (a.toNat * b.toNat) (UInt64.size - 1) := by
  rw [saturatingMul]
  split
  · rename_i hfits
    have hle : a.toNat * b.toNat ≤ UInt64.size - 1 := Nat.le_pred_of_lt hfits
    rw [UInt64.toNat_mul, Nat.mod_eq_of_lt hfits, Nat.min_eq_left hle]
  · rename_i hfits
    have hle : UInt64.size - 1 ≤ a.toNat * b.toNat :=
      Nat.le_trans (Nat.sub_le _ _) (Nat.le_of_not_lt hfits)
    rw [UInt64.toNat_ofNat_of_lt' (by decide), Nat.min_eq_right hle]

/-- Under a cap, a product that may not fit is as good as the true one. -/
theorem toNat_min_saturatingMul (a b cap : UInt64) :
    (min (saturatingMul a b) cap).toNat = min (a.toNat * b.toNat) cap.toNat := by
  have hmin : (min (saturatingMul a b) cap).toNat = min (saturatingMul a b).toNat cap.toNat :=
    (apply_ite UInt64.toNat (saturatingMul a b ≤ cap) _ _).trans Nat.min_def.symm
  have hcap : cap.toNat ≤ UInt64.size - 1 := Nat.le_pred_of_lt cap.toNat_lt
  rw [hmin, toNat_saturatingMul, Nat.min_assoc, Nat.min_eq_right hcap]

private theorem toNat_one_shiftLeft {k : UInt64} (h : k.toNat < 64) :
    ((1 : UInt64) <<< k).toNat = 2 ^ k.toNat := by
  rw [UInt64.toNat_shiftLeft, UInt64.toNat_one, Nat.one_shiftLeft, Nat.mod_eq_of_lt h]
  exact Nat.mod_eq_of_lt (Nat.pow_lt_pow_right (by decide) h)

namespace Backoff

variable {p : Backoff} {j k : Nat}

/-! ## Doubling -/

/-- The base after so many doublings, or the cap where that is less. -/
def doubled (p : Backoff) (doublings : Nat) : Nat :=
  min (p.baseMs.toNat * 2 ^ doublings) p.maxMs.toNat

private theorem doubled_succ (p : Backoff) (k : Nat) :
    p.doubled (k + 1) = min (2 * p.doubled k) p.maxMs.toNat := by
  rw [doubled, doubled, Nat.pow_succ', Nat.mul_left_comm]
  lia

theorem doubled_mono (h : j ≤ k) : p.doubled j ≤ p.doubled k := by
  have hbase : p.baseMs.toNat * 2 ^ j ≤ p.baseMs.toNat * 2 ^ k :=
    Nat.mul_le_mul_left _ (Nat.pow_le_pow_right Nat.two_pos h)
  rw [doubled, doubled]
  lia

theorem doubled_le (p : Backoff) (k : Nat) : p.doubled k ≤ p.maxMs.toNat := Nat.min_le_right _ _

private theorem base_le_doubled (h : p.baseMs.toNat ≤ p.maxMs.toNat) (k : Nat) :
    p.baseMs.toNat ≤ p.doubled k :=
  Nat.le_min.mpr ⟨Nat.le_mul_of_pos_right _ (Nat.two_pow_pos k), h⟩

/-- Doublings beyond those that reach the cap might as well be left out. -/
theorem doubled_min (h : p.maxMs.toNat ≤ p.baseMs.toNat * 2 ^ k) (j : Nat) :
    p.doubled (min j k) = p.doubled j := by
  rcases Nat.le_total j k with hle | hle
  · rw [Nat.min_eq_left hle]
  · have hreached : p.doubled k = p.maxMs.toNat := Nat.min_eq_right h
    rw [Nat.min_eq_right hle]
    exact Nat.le_antisymm (doubled_mono hle) (hreached ▸ p.doubled_le j)

/-! ## Waits -/

/-- How often the wait has doubled before this attempt. -/
def doublings (attempt : UInt32) : UInt32 := if attempt = 0 then 0 else min (attempt - 1) 32

private theorem toNat_doublings (attempt : UInt32) :
    (doublings attempt).toNat = min (attempt.toNat - 1) 32 := by
  rw [doublings]
  split
  · rename_i hzero
    rw [hzero]
    rfl
  · rename_i hattempt
    have hpos : 1 ≤ attempt := UInt32.le_iff_toNat_le.mpr
      (Nat.pos_of_ne_zero fun hzero ↦ hattempt (UInt32.toNat_inj.mp hzero))
    rw [← UInt32.toNat_one, ← UInt32.toNat_sub_of_le _ _ hpos]
    exact (apply_ite UInt32.toNat (attempt - 1 ≤ 32) _ _).trans Nat.min_def.symm

private theorem nominalMs_eq (p : Backoff) (attempt : UInt32) : p.nominalMs attempt =
    min (saturatingMul p.baseMs (1 <<< (doublings attempt).toUInt64)) p.maxMs := rfl

private theorem toNat_nominalMs (p : Backoff) (attempt : UInt32) :
    (p.nominalMs attempt).toNat = p.doubled (min (attempt.toNat - 1) 32) := by
  have hdoublings : (doublings attempt).toUInt64.toNat = min (attempt.toNat - 1) 32 := by
    rw [UInt32.toNat_toUInt64, toNat_doublings]
  have hfew : (doublings attempt).toUInt64.toNat < 64 := by
    rw [hdoublings]
    exact Nat.lt_of_le_of_lt (Nat.min_le_right _ _) (by decide)
  rw [nominalMs_eq, toNat_min_saturatingMul, toNat_one_shiftLeft hfew, hdoublings, doubled]

example : [1, 2, 3, 4, 5, 6, 7, 4294967295].map Backoff.standard.nominalMs =
    [250, 500, 1000, 2000, 4000, 5000, 5000, 5000] := by
  decide

theorem nominal_eq (p : Backoff) (attempt : UInt32) :
    p.nominal attempt = .ofMillis (p.doubled (min (attempt.toNat - 1) 32)) := by
  rw [nominal, toNat_nominalMs]

private theorem millis_nominal (p : Backoff) (attempt : UInt32) :
    (p.nominal attempt).millis = p.doubled (min (attempt.toNat - 1) 32) := by
  rw [nominal_eq]
  exact Nat.mul_div_cancel _ (by decide)

/-- However a wait is spread, it does not exceed the cap. -/
theorem delay_le (p : Backoff) (attempt : UInt32) (word : UInt64) :
    p.delay attempt word ≤ .ofMillis p.maxMs.toNat := by
  rw [delay]
  split
  · rw [nominal_eq]
    exact Nat.mul_le_mul_right _ (p.doubled_le _)
  · exact Nat.min_le_right _ _

private theorem bounds_of_check (h : p.check = .ok ()) :
    0 < p.baseMs.toNat ∧ p.baseMs.toNat ≤ p.maxMs.toNat := by
  rw [check] at h
  split at h
  · nomatch h
  · rename_i hbase
    split at h
    · nomatch h
    · rename_i hmax
      refine ⟨Nat.pos_of_ne_zero fun hzero ↦ hbase (UInt64.toNat_inj.mp hzero), ?_⟩
      exact Nat.le_of_not_lt hmax

/-- **Waits double up to the cap.** With times that pass the check, the wait before an attempt is a
whole number of milliseconds: the base, doubled for each attempt before it but 32 times at most, or
the cap where that is less. So every wait lies between the base and the cap, is never nothing, and
is no shorter than the one before. Up to attempt 33 each wait is twice the one before as long as the
cap allows it, and from there on they are all the same. Where 32 doublings reach the cap, it makes
no difference that there are no more of them. -/
theorem waits_double (p : Backoff) (h : p.check = .ok ()) :
    let base := p.baseMs.toNat
    let longest := p.maxMs.toNat
    let wait (n : UInt32) : Nat := (p.nominal n).millis
    (∀ n, p.nominal n = .ofMillis (wait n)) ∧
    (∀ n, wait n = min (base * 2 ^ min (n.toNat - 1) 32) longest) ∧
    0 < base ∧ (∀ n, base ≤ wait n ∧ wait n ≤ longest) ∧
    (∀ m n, m ≤ n → wait m ≤ wait n) ∧
    (∀ n, 0 < n → n < 33 → wait (n + 1) = min (2 * wait n) longest) ∧
    (∀ n, 33 ≤ n → wait n = wait 33) ∧
    (longest ≤ base * 2 ^ 32 → ∀ n, wait n = min (base * 2 ^ (n.toNat - 1)) longest) := by
  intro base longest wait
  obtain ⟨hpos, hbase⟩ := bounds_of_check h
  have hwait : ∀ n, wait n = p.doubled (min (n.toNat - 1) 32) := p.millis_nominal
  refine ⟨fun n ↦ ?_, hwait, hpos, fun n ↦ ?_, fun m n hle ↦ ?_, fun n hfirst hlast ↦ ?_,
    fun n hlast ↦ ?_, fun hreached n ↦ ?_⟩
  · rw [hwait, nominal_eq]
  · rw [hwait]
    exact ⟨base_le_doubled hbase _, p.doubled_le _⟩
  · have hle : m.toNat ≤ n.toNat := UInt32.le_iff_toNat_le.mp hle
    rw [hwait, hwait]
    exact doubled_mono (by lia)
  · have hfirst : 0 < n.toNat := UInt32.lt_iff_toNat_lt.mp hfirst
    have hlast : n.toNat < 33 := UInt32.lt_iff_toNat_lt.mp hlast
    have hnext : min ((n + 1).toNat - 1) 32 = min (n.toNat - 1) 32 + 1 := by
      rw [UInt32.toNat_add, UInt32.toNat_one]
      lia
    rw [hwait, hwait, hnext, doubled_succ]
  · have hlast : 33 ≤ n.toNat := UInt32.le_iff_toNat_le.mp hlast
    have hall : min (n.toNat - 1) 32 = 32 := by lia
    rw [hwait, hwait, hall]
    rfl
  · rw [hwait, doubled_min hreached]
    rfl

/-- With a base of `2 ^ 40` the product for attempt 25 is `2 ^ 64`, and a word keeps nothing of
that; the wait is the cap. -/
theorem waits_double_beyond_words :
    let p : Backoff := ⟨0x10000000000, 0xffffffffffffffff, ⟨0⟩, none⟩
    p.check = .ok () ∧ p.baseMs * ((1 : UInt64) <<< 24) = 0 ∧ (p.nominal 24).millis = 2 ^ 63 ∧
      (p.nominal 25).millis = 2 ^ 64 - 1 ∧ (p.nominal 4294967295).millis = 2 ^ 64 - 1 := by
  intro p
  have hcheck : p.check = .ok () := by decide +kernel
  obtain ⟨-, hexact, -⟩ := waits_double p hcheck
  exact ⟨hcheck, by decide, (hexact 24).trans (by decide), (hexact 25).trans (by decide),
    (hexact 4294967295).trans (by decide)⟩

end Backoff

end DeskLink.Client
