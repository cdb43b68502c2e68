import Mathlib.Data.List.Basic
import Mathlib.Tactic

/-!
# Direct-mapped tables

Every item has one slot of the table it may stand in. Writing an item
overwrites what stood there, so a slot shows the latest item that belongs in it.
Histories list the items newest first.
-/

namespace DirectMapped

variable {α : Type} {slot : α → ℕ} {table : List (Option α)} {history : List α} {x : α}

/-- Every slot shows the latest item that belongs there. -/
def Shows (slot : α → ℕ) (table : List (Option α)) (history : List α) : Prop :=
  ∀ i < table.length, table[i]? = some (history.find? fun x => slot x = i)

theorem Shows.empty (n : ℕ) : Shows slot (List.replicate n none) [] := by
  intro i hi
  rw [List.length_replicate] at hi
  rw [List.getElem?_replicate, if_pos hi, List.find?_nil]

theorem Shows.write (h : Shows slot table history) (x : α) :
    Shows slot (table.set (slot x) (some x)) (x :: history) := by
  intro i hi
  rw [List.length_set] at hi
  by_cases heq : slot x = i
  · rw [heq, List.getElem?_set_self hi, List.find?_cons_of_pos (by simp [heq])]
  · rw [List.getElem?_set_ne heq, List.find?_cons_of_neg (by simp [heq]), h i hi]

theorem Shows.getElem? (h : Shows slot table history) {i : ℕ} (hi : i < table.length) :
    table[i]? = some (some x) ↔ history.find? (fun y => slot y = i) = some x := by
  rw [h i hi, Option.some_inj]

/-! ## The latest item with a property -/

section Latest

variable {p q : α → Prop} [DecidablePred p] [DecidablePred q]

/-- In a sorted history, the latest item with a property comes before any other with it. -/
theorem exists_find {r : α → α → Prop} (sorted : history.Pairwise r) (hx : x ∈ history) (hp : p x) :
    ∃ y, history.find? (fun y => p y) = some y ∧ p y ∧ y ∈ history ∧ (y = x ∨ r y x) := by
  induction history with
  | nil => cases hx
  | cons z zs ih =>
    obtain ⟨hz, hzs⟩ := List.pairwise_cons.mp sorted
    by_cases hpz : p z
    · refine ⟨z, List.find?_cons_of_pos (by simp [hpz]), hpz, List.mem_cons_self, ?_⟩
      rcases List.mem_cons.mp hx with rfl | hx
      · exact Or.inl rfl
      · exact Or.inr (hz x hx)
    · have hx : x ∈ zs := (List.mem_cons.mp hx).resolve_left fun heq => hpz (heq ▸ hp)
      obtain ⟨y, hfind, hpy, hy, hyx⟩ := ih hzs hx
      exact ⟨y, by rw [List.find?_cons_of_neg (by simp [hpz]), hfind], hpy, List.mem_cons_of_mem _ hy, hyx⟩

/-- The latest of many is the latest of those that have a property it has. -/
theorem find_of_imp (imp : ∀ y, q y → p y) (h : history.find? (fun y => p y) = some x) (hq : q x) :
    history.find? (fun y => q y) = some x := by
  obtain ⟨hp, before, after, rfl, hbefore⟩ := List.find?_eq_some_iff_append.mp h
  refine List.find?_eq_some_iff_append.mpr ⟨by simpa using hq, before, after, rfl, fun y hy => ?_⟩
  have hpy := hbefore y hy
  simp only [Bool.not_eq_true', decide_eq_false_iff_not] at hpy ⊢
  exact fun hqy => hpy (imp y hqy)

end Latest

/-! ## Slots by residue -/

/-- Keys with one residue are a whole number of rounds apart. -/
theorem le_of_residue {n a b : ℕ} (same : a % n = b % n) (lt : a < b) : a + n ≤ b := by
  have dvd : n ∣ b - a := (Nat.modEq_iff_dvd' lt.le).mp same
  have := Nat.le_of_dvd (by omega) dvd
  omega

end DirectMapped
