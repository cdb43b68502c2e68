import Mathlib.Order.Lattice
import Mathlib.Tactic

/-!
# Records of a sequence

A record of a sequence is an entry whose key exceeds every key before it. One
pass with a high-water mark, which starts at some value and follows the largest
key kept so far, keeps the records exactly if the mark starts below the first
entry: the first entry is always a record.
-/

namespace Records

variable {α β : Type} [LinearOrder β] (key : α → β)

/-- The entries whose key exceeds every key of `earlier` and every key before them in the list. -/
def recordsAfter (earlier : List α) : List α → List α
  | [] => []
  | x :: xs =>
    if ∀ y ∈ earlier, key y < key x then x :: recordsAfter (earlier ++ [x]) xs
    else recordsAfter (earlier ++ [x]) xs

/-- The entries whose key exceeds every key before them. -/
def records (xs : List α) : List α := recordsAfter key [] xs

/-- Keep what is above the mark, and raise the mark to it. -/
def keepAbove (mark : β) : List α → List α
  | [] => []
  | x :: xs => if mark < key x then x :: keepAbove (key x) xs else keepAbove mark xs

/-- Where a pass leaves the mark. -/
def raised (mark : β) (xs : List α) : β := xs.foldl (fun m x => if m < key x then key x else m) mark

variable {key}

theorem raised_lt {mark k : β} {xs : List α} :
    raised key mark xs < k ↔ mark < k ∧ ∀ x ∈ xs, key x < k := by
  induction xs generalizing mark with
  | nil => simp [raised]
  | cons x xs ih =>
    have hstep : (if mark < key x then key x else mark) < k ↔ mark < k ∧ key x < k := by
      split_ifs with h
      · exact ⟨fun hk => ⟨h.trans hk, hk⟩, And.right⟩
      · exact ⟨fun hk => ⟨hk, lt_of_le_of_lt (not_lt.mp h) hk⟩, And.left⟩
    rw [List.forall_mem_cons, ← and_assoc, ← hstep]
    exact ih

theorem lt_of_mem_keepAbove {mark : β} {x : α} {xs : List α} (h : x ∈ keepAbove key mark xs) :
    mark < key x := by
  induction xs generalizing mark with
  | nil => simp [keepAbove] at h
  | cons y ys ih =>
    unfold keepAbove at h
    split_ifs at h with hy
    · rcases List.mem_cons.mp h with rfl | h
      · exact hy
      · exact hy.trans (ih h)
    · exact ih h

theorem keepAbove_sublist {mark : β} {xs : List α} : (keepAbove key mark xs).Sublist xs := by
  induction xs generalizing mark with
  | nil => exact .slnil
  | cons x xs ih =>
    unfold keepAbove
    split_ifs
    · exact ih.cons_cons x
    · exact ih.cons x

theorem keepAbove_append {mark : β} {xs ys : List α} :
    keepAbove key mark (xs ++ ys) = keepAbove key mark xs ++ keepAbove key (raised key mark xs) ys := by
  induction xs generalizing mark with
  | nil => rfl
  | cons x xs ih =>
    rw [List.cons_append, keepAbove, keepAbove, ih, ih]
    unfold raised
    split_ifs <;> simp [*]

/-- A mark that decides the entries to come as the earlier entries do goes on doing so. -/
theorem keepAbove_eq_recordsAfter {mark : β} {earlier xs : List α}
    (agree : ∀ x ∈ xs, mark < key x ↔ ∀ y ∈ earlier, key y < key x) :
    keepAbove key mark xs = recordsAfter key earlier xs := by
  induction xs generalizing mark earlier with
  | nil => rfl
  | cons x xs ih =>
    obtain ⟨hx, hxs⟩ := List.forall_mem_cons.mp agree
    unfold keepAbove recordsAfter
    by_cases above : mark < key x
    · rw [if_pos above, if_pos (hx.mp above)]
      refine congrArg _ (ih fun z hz => ⟨fun hlt y hy => ?_, fun h => h x (by simp)⟩)
      rcases List.mem_append.mp hy with hy | hy
      · exact (hx.mp above y hy).trans hlt
      · rw [List.mem_singleton.mp hy]
        exact hlt
    · rw [if_neg above, if_neg fun h => above (hx.mpr h)]
      refine ih fun z hz => ⟨fun hlt y hy => ?_, fun h => (hxs z hz).mpr fun y hy => h y (by simp [hy])⟩
      rcases List.mem_append.mp hy with hy | hy
      · exact (hxs z hz).mp hlt y hy
      · rw [List.mem_singleton.mp hy]
        exact lt_of_le_of_lt (not_lt.mp above) hlt

/-- **The pass keeps the records** exactly if the mark starts below the first entry. -/
theorem keepAbove_eq_records_iff {mark : β} {xs : List α} :
    keepAbove key mark xs = records key xs ↔ ∀ x ∈ xs.head?, mark < key x := by
  cases xs with
  | nil => simp [keepAbove, records, recordsAfter]
  | cons x xs =>
    have hrecords : records key (x :: xs) = x :: recordsAfter key [x] xs := by
      simp [records, recordsAfter]
    rw [hrecords, List.head?_cons]
    constructor
    · intro h z hz
      obtain rfl : x = z := Option.some.inj hz
      exact lt_of_mem_keepAbove (h ▸ List.mem_cons_self)
    · intro h
      have htail : keepAbove key (key x) xs = recordsAfter key [x] xs := keepAbove_eq_recordsAfter (by simp)
      unfold keepAbove
      rw [if_pos (h x rfl), htail]

end Records
