import Mathlib.Data.List.Basic
import Mathlib.Tactic

/-!
# Grounded logs

In a grounded log every entry stands after everything it depends on. The log
grows by batches; a batch keeps it grounded exactly when each of its entries
finds what it depends on in the log or earlier in the batch.
-/

/-- Every entry of `l` comes after all its dependencies. -/
def Grounded {α : Type} (dep : α → α → Prop) (l : List α) : Prop :=
  ∀ before a after, l = before ++ a :: after → ∀ b, dep b a → b ∈ before

namespace Grounded

variable {α : Type} {dep : α → α → Prop} {l l' : List α}

theorem nil : Grounded dep [] := by
  intro before a after h
  simp at h

theorem append_iff :
    Grounded dep (l ++ l') ↔ Grounded dep l ∧
      ∀ before a after, l' = before ++ a :: after → ∀ b, dep b a → b ∈ l ∨ b ∈ before := by
  constructor
  · intro h
    constructor
    · rintro before a after rfl b hb
      exact h before a (after ++ l') (by simp) b hb
    · rintro before a after rfl b hb
      exact List.mem_append.mp (h (l ++ before) a after (by simp) b hb)
  · rintro ⟨hl, hl'⟩ before a after heq b hb
    rcases List.append_eq_append_iff.mp heq with ⟨mid, rfl, hrest⟩ | ⟨mid, rfl, hrest⟩
    · exact List.mem_append.mpr (hl' mid a after hrest b hb)
    · cases mid with
      | nil =>
        rcases hl' [] a after (by simpa using hrest.symm) b hb with hmem | hmem
        · simpa using hmem
        · cases hmem
      | cons c mid =>
        obtain ⟨rfl, rfl⟩ := List.cons_eq_cons.mp hrest
        exact hl before a mid rfl b hb

theorem prefix_of (h : Grounded dep (l ++ l')) : Grounded dep l := (append_iff.mp h).1

/-- A batch in an order along which every dependency comes first need only be complete. -/
theorem append_sorted_iff {r : α → α → Prop} (sorted : l'.Pairwise r)
    (order : ∀ a b, dep b a → a ≠ b ∧ ¬ r a b) :
    Grounded dep (l ++ l') ↔ Grounded dep l ∧ ∀ a ∈ l', ∀ b, dep b a → b ∈ l ∨ b ∈ l' := by
  rw [append_iff]
  refine and_congr_right fun _ => ?_
  constructor
  · intro h a ha b hb
    obtain ⟨before, after, rfl⟩ := List.append_of_mem ha
    exact (h before a after rfl b hb).imp_right fun hmem => by simp [hmem]
  · rintro h before a after rfl b hb
    refine (h a (by simp) b hb).imp_right fun hmem => ?_
    rcases List.mem_append.mp hmem with hmem | hmem
    · exact hmem
    · -- an entry behind `a` is not one of its dependencies
      obtain ⟨hne, hnot⟩ := order a b hb
      rcases List.mem_cons.mp hmem with heq | hmem
      · exact absurd heq.symm hne
      · exact absurd ((List.pairwise_cons.mp (List.pairwise_append.mp sorted).2.1).1 b hmem) hnot

end Grounded
