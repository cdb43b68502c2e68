import Mathlib.Data.UInt
import Mathlib.Tactic

/-!
# `u64` counters

Successor and predecessor of a counter, as numbers, away from the ends of its range.
-/

namespace Counter

variable {s k : UInt64}

theorem toNat_succ (fits : s.toNat + 1 < 2 ^ 64) : (s + 1).toNat = s.toNat + 1 := by
  rw [UInt64.toNat_add, UInt64.toNat_one]
  exact Nat.mod_eq_of_lt fits

theorem toNat_succ_of_lt (h : s < k) : (s + 1).toNat = s.toNat + 1 := by
  have hlt := UInt64.lt_iff_toNat_lt.mp h
  have hk := k.toNat_lt
  exact toNat_succ (by omega)

theorem toNat_pred (pos : 0 < s) : (s - 1).toNat = s.toNat - 1 := by
  have hpos := UInt64.lt_iff_toNat_lt.mp pos
  apply UInt64.toNat_sub_of_le
  rw [UInt64.le_iff_toNat_le]
  exact hpos

theorem le_pred_of_lt (h : k < s) : k ≤ s - 1 := by
  have hlt := UInt64.lt_iff_toNat_lt.mp h
  have hpos : 0 < s := by
    rw [UInt64.lt_iff_toNat_lt, UInt64.toNat_zero]
    omega
  rw [UInt64.le_iff_toNat_le, toNat_pred hpos]
  omega

theorem lt_or_eq_of_lt_succ (h : k < s + 1) : k < s ∨ k = s := by
  have hlt := UInt64.lt_iff_toNat_lt.mp h
  rw [UInt64.toNat_add, UInt64.toNat_one] at hlt
  have hle := Nat.mod_le (s.toNat + 1) (2 ^ 64)
  rw [UInt64.lt_iff_toNat_lt, ← UInt64.toNat_inj]
  omega

theorem one_lt_of_pos_of_ne (pos : 0 < s) (ne : s ≠ 1) : 1 < s := by
  have hne : s.toNat ≠ 1 := fun heq => ne (UInt64.toNat_inj.mp heq)
  have hpos := UInt64.lt_iff_toNat_lt.mp pos
  rw [UInt64.toNat_zero] at hpos
  rw [UInt64.lt_iff_toNat_lt, UInt64.toNat_one]
  omega

end Counter
