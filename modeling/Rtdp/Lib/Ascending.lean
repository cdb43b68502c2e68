import Mathlib.Data.UInt
import Mathlib.Tactic

/-!
# Logs that grow in order

A log to which batches are appended stays strictly ordered exactly when each
batch is, and lies above the last entry before it.
-/

namespace Ascending

section Relation

variable {α : Type} {r : α → α → Prop} {l l' : List α} {d : α}

theorem getLastD_append (l l' : List α) (d : α) : (l ++ l').getLastD d = l'.getLastD (l.getLastD d) := by
  induction l generalizing d with
  | nil => rfl
  | cons a l ih => rw [List.cons_append, List.getLastD_cons, List.getLastD_cons, ih]

/-- The last entry is above or equal to every other. -/
theorem last_above (h : l.Pairwise r) {a : α} (ha : a ∈ l) : a = l.getLastD d ∨ r a (l.getLastD d) := by
  induction l generalizing d with
  | nil => cases ha
  | cons b l ih =>
    rw [List.getLastD_cons]
    obtain ⟨hb, hl⟩ := List.pairwise_cons.mp h
    rcases List.mem_cons.mp ha with rfl | ha
    · rcases List.mem_cons.mp (List.getLastD_mem_cons (l := l) (a := a)) with heq | hmem
      · exact Or.inl heq.symm
      · exact Or.inr (hb _ hmem)
    · exact ih hl ha

theorem append_iff [IsTrans α r] (h : l.Pairwise r) :
    (l ++ l').Pairwise r ↔ l'.Pairwise r ∧ (l = [] ∨ ∀ b ∈ l', r (l.getLastD d) b) := by
  rw [List.pairwise_append]
  constructor
  · rintro ⟨-, hl', hcross⟩
    refine ⟨hl', ?_⟩
    cases l with
    | nil => exact Or.inl rfl
    | cons a l =>
      refine Or.inr fun b hb => ?_
      rw [List.getLastD_cons]
      exact hcross _ List.getLastD_mem_cons b hb
  · rintro ⟨hl', hlast⟩
    refine ⟨h, hl', fun a ha b hb => ?_⟩
    rcases hlast with rfl | hlast
    · cases ha
    · rcases last_above (d := d) h ha with rfl | hra
      · exact hlast b hb
      · exact IsTrans.trans _ _ _ hra (hlast b hb)

end Relation

instance instIsTransLt : IsTrans UInt64 (· < ·) := ⟨fun _ _ _ => UInt64.lt_trans⟩

/-- The running maximum over an ascending batch is its last entry. -/
theorem foldl_max {l : List UInt64} {h : UInt64} (sorted : l.Pairwise (· < ·)) (above : ∀ b ∈ l, h ≤ b) :
    l.foldl max h = l.getLastD h := by
  induction l generalizing h with
  | nil => rfl
  | cons a l ih =>
    obtain ⟨ha, hl⟩ := List.pairwise_cons.mp sorted
    have hmax : max h a = a := if_pos (above a (by simp))
    rw [List.foldl_cons, List.getLastD_cons, hmax]
    exact ih hl fun b hb => UInt64.le_of_lt (ha b hb)

end Ascending
