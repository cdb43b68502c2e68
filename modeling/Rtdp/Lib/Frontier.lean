import Mathlib.Order.Bounds.Basic
import Mathlib.Data.List.Range
import Mathlib.Tactic

/-!
# The frontier of a set of numbers

The frontier of `S` is the least positive number missing from `S`: the end of
the unbroken stretch `1, 2, …` inside `S`. A component that releases numbered
items in order is at the frontier of what it has received; one arrival moves
the frontier by exactly the items it may then release.
-/

/-- `n` is the least positive number not in `S`. -/
def IsFrontier (S : Set ℕ) (n : ℕ) : Prop := IsLeast {k | 0 < k ∧ k ∉ S} n

namespace IsFrontier

variable {S : Set ℕ} {n m k : ℕ}

theorem pos (h : IsFrontier S n) : 0 < n := h.1.1

theorem not_mem (h : IsFrontier S n) : n ∉ S := h.1.2

theorem mem_of_lt (h : IsFrontier S n) (hk : 0 < k) (hkn : k < n) : k ∈ S := by
  by_contra hmem
  exact absurd (h.2 ⟨hk, hmem⟩) (by omega)

theorem unique (h : IsFrontier S n) (h' : IsFrontier S m) : n = m := IsLeast.unique h h'

theorem intro (hn : 0 < n) (hmem : n ∉ S) (below : ∀ k, 0 < k → k < n → k ∈ S) :
    IsFrontier S n := by
  refine ⟨⟨hn, hmem⟩, fun k hk => ?_⟩
  by_contra hlt
  exact hk.2 (below k hk.1 (by omega))

theorem empty : IsFrontier ∅ 1 := intro one_pos (by simp) (by intros; omega)

/-- A number off the frontier does not move it. -/
theorem insert_of_ne (h : IsFrontier S n) (hk : k ≠ n) : IsFrontier (insert k S) n :=
  intro h.pos (by simp [h.not_mem, hk.symm]) fun _ hj hjn => Or.inr (h.mem_of_lt hj hjn)

/-- The number at the frontier moves it to the next missing number. -/
theorem insert_self (h : IsFrontier S n) (hnm : n < m) (hm : m ∉ S)
    (between : ∀ k, n < k → k < m → k ∈ S) : IsFrontier (insert n S) m := by
  refine intro (by omega) (by simp [hm]; omega) fun k hk hkm => ?_
  rcases lt_trichotomy k n with hlt | rfl | hgt
  · exact Or.inr (h.mem_of_lt hk hlt)
  · exact Or.inl rfl
  · exact Or.inr (between k hgt hkm)

end IsFrontier

/-! ## In-order release

The purpose of an in-order receiver, without buffers or counters: with `S`
received so far, the arrival of `k` releases the numbers between the old and
the new frontier. -/

/-- Arrival of `k` after `S` releases `out`. -/
def Releases (S : Set ℕ) (k : ℕ) (out : List ℕ) : Prop :=
  ∃ n m, IsFrontier S n ∧ IsFrontier (insert k S) m ∧ out = List.range' n (m - n)

namespace Releases

variable {S : Set ℕ} {k n : ℕ}

theorem none_of_ne (h : IsFrontier S n) (hk : k ≠ n) : Releases S k [] :=
  ⟨n, n, h, h.insert_of_ne hk, by simp⟩

theorem frontier_le {m : ℕ} (h : IsFrontier S n) (h' : IsFrontier (insert k S) m) : n ≤ m := by
  by_contra hlt
  exact h'.not_mem (Or.inr (h.mem_of_lt h'.pos (by omega)))

/-- The releases of a run, put together, are the numbers up to the frontier. -/
theorem append {m : ℕ} {out : List ℕ} (h : IsFrontier S n) (h' : IsFrontier (insert k S) m)
    (hout : Releases S k out) :
    List.range' 1 (n - 1) ++ out = List.range' 1 (m - 1) := by
  obtain ⟨n', m', hn, hm, rfl⟩ := hout
  obtain rfl := h.unique hn
  obtain rfl := h'.unique hm
  have hle := frontier_le h h'
  have hpos := h.pos
  rw [show m - 1 = (n - 1) + (m - n) by omega, ← List.range'_append_1]
  congr 2
  omega

end Releases
