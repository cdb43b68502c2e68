import Mathlib.Order.Bounds.Basic
import Mathlib.Data.List.Range
import Mathlib.Tactic

/-!
# Counting up inside a sequence

How far a sequence counts up: the largest `k` such that `1, 2, …, k` occurs in
it in this order, other numbers in between. Taking each next number where it
first turns up finds it, so one more number moves the count by one or not at
all.
-/

/-- `1, 2, …, k` is a subsequence. -/
def CountsTo (xs : List ℕ) (k : ℕ) : Prop := (List.range' 1 k).Sublist xs

/-- The largest `k` the sequence counts to. -/
def IsCount (xs : List ℕ) (k : ℕ) : Prop := IsGreatest {k | CountsTo xs k} k

theorem CountsTo.snoc {xs : List ℕ} {x k : ℕ} (h : CountsTo (xs ++ [x]) k) :
    CountsTo xs k ∨ k = x ∧ 0 < k ∧ CountsTo xs (k - 1) := by
  unfold CountsTo at h ⊢
  cases k with
  | zero => exact .inl (List.nil_sublist xs)
  | succ k =>
    rw [List.range'_1_concat] at h ⊢
    have hrev := h.reverse
    rw [List.reverse_append, List.reverse_append, List.reverse_singleton, List.reverse_singleton,
      List.singleton_append, List.singleton_append] at hrev
    cases hrev with
    | cons _ hskip =>
      left
      simpa using hskip.reverse
    | cons_cons _ htake =>
      right
      exact ⟨Nat.add_comm k 1, k.succ_pos, by simpa using htake.reverse⟩

namespace IsCount

variable {xs ys : List ℕ} {x k n : ℕ}

theorem nil : IsCount [] 0 :=
  ⟨.slnil, fun k hk => by simpa using List.Sublist.length_le hk⟩

/-- The next number moves the count by one. -/
theorem snoc_next (h : IsCount xs k) : IsCount (xs ++ [k + 1]) (k + 1) := by
  constructor
  · have hcount : (List.range' 1 k).Sublist xs := h.1
    have hnext : List.range' 1 (k + 1) = List.range' 1 k ++ [k + 1] := by
      rw [List.range'_1_concat, Nat.add_comm 1 k]
    change (List.range' 1 (k + 1)).Sublist (xs ++ [k + 1])
    rw [hnext]
    exact hcount.append (List.Sublist.refl _)
  · intro n hn
    rcases CountsTo.snoc hn with hn | ⟨rfl, -, -⟩
    · exact Nat.le_succ_of_le (h.2 hn)
    · exact le_rfl

/-- Any other number leaves it. -/
theorem snoc_other (h : IsCount xs k) (hx : x ≠ k + 1) : IsCount (xs ++ [x]) k := by
  refine ⟨h.1.trans (List.sublist_append_left xs [x]), fun n hn => ?_⟩
  rcases CountsTo.snoc hn with hn | ⟨rfl, hpos, hn⟩
  · exact h.2 hn
  · have := h.2 hn
    omega

/-- A longer sequence counts at least as far. -/
theorem le_append (h : IsCount xs k) (h' : IsCount (xs ++ ys) n) : k ≤ n :=
  h'.2 (h.1.trans (List.sublist_append_left xs ys))

end IsCount
