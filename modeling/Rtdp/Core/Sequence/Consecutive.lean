import Mathlib.Data.UInt
import Mathlib.Tactic

/-!
# Stretches of sequences

The sequences an upward loop over `u64` visits. A stretch that does not run past
the last `u64` is an interval of numbers; one that does goes on at 0.
-/

namespace Rtdp

/-- `a.saturating_sub(b)`. -/
def saturatingSub (a b : UInt64) : UInt64 := if a < b then 0 else a - b

/-- `c, c + 1, …`, in `u64` arithmetic. -/
def consecutive (c : UInt64) (n : Nat) : List UInt64 := (List.range n).map fun i => c + UInt64.ofNat i

theorem consecutive_succ (c : UInt64) (n : Nat) :
    consecutive c (n + 1) = c :: consecutive (c + 1) n := by
  simp only [consecutive, List.range_succ_eq_map, List.map_cons, List.map_map]
  congr 1
  · simp
  · apply List.map_congr_left
    intro i _
    simp only [Function.comp, Nat.succ_eq_add_one, UInt64.ofNat_add, UInt64.ofNat_one]
    rw [UInt64.add_assoc, UInt64.add_comm 1]

theorem mem_consecutive {c k : UInt64} {n : Nat} :
    k ∈ consecutive c n ↔ ∃ i < n, c + UInt64.ofNat i = k := by
  simp [consecutive]

/-- A stretch of length `n` reaches everything less than `n` above its start. -/
theorem mem_consecutive_of_le {c k : UInt64} {n : Nat} (h : c ≤ k) (hn : k.toNat - c.toNat < n) :
    k ∈ consecutive c n := by
  refine mem_consecutive.mpr ⟨k.toNat - c.toNat, hn, ?_⟩
  have hle := UInt64.le_iff_toNat_le.mp h
  have hlt := k.toNat_lt
  have fits : k.toNat - c.toNat < 2 ^ 64 := by omega
  apply UInt64.toNat_inj.mp
  rw [UInt64.toNat_add, UInt64.toNat_ofNat_of_lt' fits]
  omega

/-- A stretch that runs past the last `u64` goes on at 0. -/
theorem zero_mem_consecutive {s : UInt64} {n : Nat} (past : 2 ^ 64 < s.toNat + 1 + n) :
    0 ∈ consecutive (s + 1) n := by
  have hs := s.toNat_lt
  refine mem_consecutive.mpr ⟨2 ^ 64 - 1 - s.toNat, by omega, ?_⟩
  apply UInt64.toNat_inj.mp
  have hsmall : 2 ^ 64 - 1 - s.toNat < 2 ^ 64 := by omega
  rw [UInt64.toNat_add, UInt64.toNat_add, UInt64.toNat_ofNat_of_lt' hsmall, UInt64.toNat_one,
    UInt64.toNat_zero]
  omega

/-- What comes before an entry of a stretch: everything from its start up to the entry. -/
theorem consecutive_before {c a k : UInt64} {n : Nat} {before after : List UInt64}
    (h : consecutive c n = before ++ a :: after) (hc : c ≤ k) (hk : k < a) : k ∈ before := by
  have hlen : before.length < n := by
    have := congrArg List.length h
    simp [consecutive] at this
    omega
  have hbefore : before = consecutive c before.length := by
    have htake := congrArg (List.take before.length) h
    rw [List.take_left, consecutive, ← List.map_take, List.take_range, Nat.min_eq_left (by omega)] at htake
    exact htake.symm
  have ha : a = c + UInt64.ofNat before.length := by
    have hget := congrArg (·[before.length]?) h
    simp [consecutive, hlen] at hget
    exact hget.symm
  rw [hbefore]
  apply mem_consecutive_of_le hc
  rw [UInt64.lt_iff_toNat_lt, ha, UInt64.toNat_add] at hk
  have hle : (c.toNat + (UInt64.ofNat before.length).toNat) % 2 ^ 64 ≤ c.toNat + before.length := by
    apply le_trans (Nat.mod_le _ _)
    have : (UInt64.ofNat before.length).toNat ≤ before.length := by
      rw [UInt64.toNat_ofNat']
      exact Nat.mod_le _ _
    omega
  have := UInt64.le_iff_toNat_le.mp hc
  omega

/-- A stretch that does not wrap, as numbers. -/
theorem consecutive_toNat {c : UInt64} {n : Nat} (fits : c.toNat + n ≤ 2 ^ 64) :
    (consecutive c n).map UInt64.toNat = List.range' c.toNat n := by
  rw [consecutive, List.map_map, List.range'_eq_map_range]
  apply List.map_congr_left
  intro i hi
  have hi := List.mem_range.mp hi
  have small : i < 2 ^ 64 := by omega
  simp only [Function.comp, UInt64.toNat_add]
  rw [UInt64.toNat_ofNat_of_lt' small]
  omega

/-- The stretch of a request, as numbers. -/
theorem consecutive_range {a b : UInt64} :
    (consecutive a (b.toNat + 1 - a.toNat)).map UInt64.toNat =
      List.range' a.toNat (b.toNat + 1 - a.toNat) := by
  by_cases hle : a.toNat ≤ b.toNat + 1
  · apply consecutive_toNat
    have := b.toNat_lt
    omega
  · have hnone : b.toNat + 1 - a.toNat = 0 := by omega
    rw [hnone]
    rfl

theorem mem_consecutive_range {a b s : UInt64} (ha : a ≤ s) (hb : s ≤ b) :
    s ∈ consecutive a (b.toNat + 1 - a.toNat) := by
  rw [UInt64.le_iff_toNat_le] at hb
  apply mem_consecutive_of_le ha
  rw [UInt64.le_iff_toNat_le] at ha
  omega

theorem of_mem_consecutive_range {a b s : UInt64} (h : s ∈ consecutive a (b.toNat + 1 - a.toNat)) :
    a ≤ s ∧ s ≤ b := by
  have hmem := List.mem_map_of_mem (f := UInt64.toNat) h
  rw [consecutive_range, List.mem_range'_1] at hmem
  rw [UInt64.le_iff_toNat_le, UInt64.le_iff_toNat_le]
  omega

end Rtdp
