import Std.Data.ExtTreeMap
import Mathlib.Tactic

/-!
# Ordered maps with keyed values

`OrderedMap κ v` is the extensional tree map of the standard library. The
lemmas here state its lookups with equality of keys, and describe `ascending`,
the values in the order of their keys, for maps whose values know their own key.
-/

open Std

/-- A finite map, equal to any other with the same lookups. -/
abbrev OrderedMap (κ v : Type) [Ord κ] := ExtTreeMap κ v compare

namespace OrderedMap

variable {κ v : Type} [Ord κ] [TransOrd κ]

theorem size_erase_of_get {m : OrderedMap κ v} {k : κ} {x : v} (h : m[k]? = some x) :
    (m.erase k).size + 1 = m.size := by
  have mem : k ∈ m := ExtTreeMap.mem_iff_isSome_getElem?.mpr (by simp [h])
  have pos : m.size ≠ 0 := by
    intro hz
    rw [ExtTreeMap.eq_empty_iff_size_eq_zero.mpr hz] at h
    simp at h
  rw [ExtTreeMap.size_erase, if_pos (ExtTreeMap.contains_iff_mem.mpr mem)]
  omega

theorem size_erase_lt {m : OrderedMap κ v} {k : κ} {x : v} (h : m[k]? = some x) :
    (m.erase k).size < m.size :=
  Nat.lt_of_succ_le (size_erase_of_get h).le

theorem size_insert_of_get {m : OrderedMap κ v} {k : κ} {x y : v} (h : m[k]? = some y) :
    (m.insert k x).size = m.size := by
  have mem : k ∈ m := ExtTreeMap.mem_iff_isSome_getElem?.mpr (by simp [h])
  rw [ExtTreeMap.size_insert, if_pos (ExtTreeMap.contains_iff_mem.mpr mem)]

theorem size_insert_of_none {m : OrderedMap κ v} {k : κ} {x : v} (h : m[k]? = none) :
    (m.insert k x).size = m.size + 1 := by
  rw [ExtTreeMap.size_insert, if_neg]
  rw [ExtTreeMap.contains_iff_mem, ExtTreeMap.mem_iff_isSome_getElem?, h]
  exact Bool.false_ne_true

theorem exists_get_of_ne_empty {m : OrderedMap κ v} (h : m ≠ ∅) : ∃ (k : κ) (x : v), m[k]? = some x := by
  by_contra hnone
  push Not at hnone
  refine h (ExtTreeMap.eq_empty_iff_forall_not_mem.mpr fun k hk => ?_)
  obtain ⟨x, hx⟩ := Option.isSome_iff_exists.mp (ExtTreeMap.mem_iff_isSome_getElem?.mp hk)
  exact hnone k x hx

theorem exists_get_of_size_pos {m : OrderedMap κ v} (h : 0 < m.size) : ∃ (k : κ) (x : v), m[k]? = some x := by
  apply exists_get_of_ne_empty
  rintro rfl
  rw [ExtTreeMap.size_empty] at h
  exact Nat.lt_irrefl 0 h

/-- The values in ascending order of their keys. -/
def ascending (m : OrderedMap κ v) : List v := m.toList.map Prod.snd

@[simp] theorem ascending_empty : ascending (∅ : OrderedMap κ v) = [] := rfl

/-- Every value is stored under the key it carries. -/
def Keyed (key : v → κ) (m : OrderedMap κ v) : Prop := ∀ (k : κ) (x : v), m[k]? = some x → key x = k

theorem Keyed.empty {key : v → κ} : Keyed key (∅ : OrderedMap κ v) := by
  intro k x h
  simp at h

variable [LawfulEqOrd κ]

namespace Keyed

variable {key : v → κ} {m : OrderedMap κ v}

theorem mem_ascending (h : Keyed key m) {x : v} : x ∈ ascending m ↔ m[key x]? = some x := by
  simp only [ascending, List.mem_map, Prod.exists, ExtTreeMap.mem_toList_iff_getElem?_eq_some]
  constructor
  · rintro ⟨k, y, hk, rfl⟩
    rwa [h k y hk]
  · exact fun hx => ⟨key x, x, hx, rfl⟩

theorem mem_map_ascending (h : Keyed key m) {k : κ} :
    k ∈ (ascending m).map key ↔ ∃ x, m[k]? = some x := by
  simp only [List.mem_map, h.mem_ascending]
  constructor
  · rintro ⟨x, hx, rfl⟩
    exact ⟨x, hx⟩
  · rintro ⟨x, hx⟩
    have hk := h k x hx
    exact ⟨x, by rwa [hk], hk⟩

/-- `ascending` is strictly ascending in the key. -/
theorem ascending_sorted (h : Keyed key m) :
    (ascending m).Pairwise fun x y => compare (key x) (key y) = .lt := by
  rw [ascending, List.pairwise_map]
  refine (ExtTreeMap.ordered_keys_toList (t := m)).imp_of_mem fun ha hb hab => ?_
  rwa [h _ _ (ExtTreeMap.mem_toList_iff_getElem?_eq_some.mp ha),
    h _ _ (ExtTreeMap.mem_toList_iff_getElem?_eq_some.mp hb)]

end Keyed

/-- A property of all entries, read off the list of them. -/
theorem forall_get_iff {m : OrderedMap κ v} {P : κ → v → Prop} :
    (∀ (k : κ) (x : v), m[k]? = some x → P k x) ↔ ∀ p ∈ m.toList, P p.1 p.2 := by
  simp only [Prod.forall, ExtTreeMap.mem_toList_iff_getElem?_eq_some]

variable [DecidableEq κ]

theorem get_insert (m : OrderedMap κ v) (k a : κ) (x : v) :
    (m.insert k x)[a]? = if a = k then some x else m[a]? := by
  rw [ExtTreeMap.getElem?_insert]
  simp only [Std.compare_eq_iff_eq, eq_comm (a := k)]

theorem get_erase (m : OrderedMap κ v) (k a : κ) :
    (m.erase k)[a]? = if a = k then none else m[a]? := by
  rw [ExtTreeMap.getElem?_erase]
  simp only [Std.compare_eq_iff_eq, eq_comm (a := k)]

/-- A lookup after an insertion finds the new value or an old one. -/
theorem get_insert_cases {m : OrderedMap κ v} {k a : κ} {x y : v} (h : (m.insert k x)[a]? = some y) :
    a = k ∧ y = x ∨ a ≠ k ∧ m[a]? = some y := by
  rw [get_insert] at h
  split at h
  · rename_i heq
    cases h
    exact Or.inl ⟨heq, rfl⟩
  · rename_i hne
    exact Or.inr ⟨hne, h⟩

/-- A property of the new entry and of the other old ones is one of all entries after an insertion. -/
theorem forall_get_insert {m : OrderedMap κ v} {k : κ} {x : v} {P : κ → v → Prop} (new : P k x)
    (old : ∀ a y, a ≠ k → m[a]? = some y → P a y) (a : κ) (y : v) (h : (m.insert k x)[a]? = some y) :
    P a y := by
  obtain ⟨rfl, rfl⟩ | ⟨hne, hold⟩ := get_insert_cases h
  · exact new
  · exact old a y hne hold

/-- What is found after an erasure was there before it, under another key. -/
theorem get_of_get_erase {m : OrderedMap κ v} {k a : κ} {y : v} (h : (m.erase k)[a]? = some y) :
    a ≠ k ∧ m[a]? = some y := by
  rw [get_erase] at h
  split at h
  · cases h
  · rename_i hne
    exact ⟨hne, h⟩

theorem erase_insert (m : OrderedMap κ v) (k : κ) (x : v) : (m.insert k x).erase k = m.erase k := by
  apply ExtTreeMap.ext_getElem?
  intro a
  rw [get_erase, get_erase, get_insert]
  by_cases ha : a = k <;> simp [ha]

theorem insert_insert (m : OrderedMap κ v) (k : κ) (x y : v) : (m.insert k x).insert k y = m.insert k y := by
  apply ExtTreeMap.ext_getElem?
  intro a
  rw [get_insert, get_insert, get_insert]
  by_cases ha : a = k <;> simp [ha]

/-- An insertion is without effect exactly if the value is there already. -/
theorem insert_eq_self_iff {m : OrderedMap κ v} {k : κ} {x : v} : m.insert k x = m ↔ m[k]? = some x := by
  constructor
  · intro h
    rw [← h, get_insert, if_pos rfl]
  · intro h
    apply ExtTreeMap.ext_getElem?
    intro a
    rw [get_insert]
    by_cases ha : a = k
    · rw [if_pos ha, ha, h]
    · rw [if_neg ha]

/-- An erasure is without effect exactly if nothing is there. -/
theorem erase_eq_self_iff {m : OrderedMap κ v} {k : κ} : m.erase k = m ↔ m[k]? = none := by
  constructor
  · intro h
    rw [← h, get_erase, if_pos rfl]
  · intro h
    apply ExtTreeMap.ext_getElem?
    intro a
    rw [get_erase]
    by_cases ha : a = k
    · rw [if_pos ha, ha, h]
    · rw [if_neg ha]

namespace Keyed

variable {key : v → κ} {m : OrderedMap κ v}

theorem insert (h : Keyed key m) (x : v) : Keyed key (m.insert (key x) x) :=
  forall_get_insert rfl fun k y _ hold => h k y hold

theorem erase (h : Keyed key m) (k : κ) : Keyed key (m.erase k) :=
  fun a y hy => h a y (get_of_get_erase hy).2

end Keyed

end OrderedMap
