import Mathlib.Data.List.Induction
import DeskLink.Bytes

/-!
# Numbers in bytes

Bytes that are read as a number and written again in their own width are the same bytes, so a number
in a given width has one spelling.
-/

namespace DeskLink.Bytes

theorem ofNat_toNat (s : Bytes) : ofNat s.length s.toNat = s := by
  -- The most significant byte comes first, so the last one is split off.
  induction s using List.reverseRecOn with
  | nil => rfl
  | append_singleton s x ih =>
    have hdiv : (toNat s * 256 + x.toNat) / 256 = toNat s := by
      have hlt := x.toNat_lt
      omega
    have hlow : UInt8.ofNat (toNat s * 256 + x.toNat) = x := by
      rw [← UInt8.toNat_inj, UInt8.toNat_ofNat']
      have hlt := x.toNat_lt
      omega
    rw [toNat_append_singleton, List.length_append, List.length_singleton, ofNat, hdiv, ih, hlow]

theorem toNat_lt (s : Bytes) : s.toNat < 1 <<< (8 * s.length) := by
  have hmod : s.toNat % 1 <<< (8 * s.length) = s.toNat := by
    rw [← toNat_ofNat, ofNat_toNat]
  have hpos : 0 < 1 <<< (8 * s.length) := by
    rw [Nat.shiftLeft_eq, Nat.one_mul]
    exact Nat.two_pow_pos _
  exact hmod ▸ Nat.mod_lt _ hpos

end DeskLink.Bytes
