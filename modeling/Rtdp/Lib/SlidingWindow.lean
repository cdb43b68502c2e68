import Mathlib.Data.List.Basic
import Mathlib.Tactic

/-!
# Sliding windows in a circular list

A circular list of bounded capacity keeps the last items recorded: it grows
until it is full, and from then on the newest item overwrites the oldest, which
stands at the head. Histories list the items newest first.
-/

namespace SlidingWindow

variable {α : Type} {ring recorded : List α} {head capacity : ℕ} {x : α}

/-- Read from its head on, the ring is the last `capacity` items recorded, oldest first. -/
structure Reads (ring : List α) (head capacity : ℕ) (recorded : List α) : Prop where
  growing : ring.length < capacity → head = 0
  window : ring.drop head ++ ring.take head = (recorded.take capacity).reverse

namespace Reads

theorem empty (capacity : ℕ) : Reads ([] : List α) 0 capacity [] where
  growing := fun _ => rfl
  window := by simp

theorem perm (h : Reads ring head capacity recorded) : ring.Perm (recorded.take capacity) := by
  have hswap : (ring.drop head ++ ring.take head).Perm ring := by
    have hcomm : (ring.drop head ++ ring.take head).Perm (ring.take head ++ ring.drop head) :=
      List.perm_append_comm
    rwa [List.take_append_drop] at hcomm
  rw [h.window] at hswap
  exact hswap.symm.trans (List.reverse_perm _)

/-- A ring that is not full holds everything recorded. -/
theorem append (h : Reads ring head capacity recorded) (room : ring.length < capacity) (x : α) :
    Reads (ring ++ [x]) head capacity (x :: recorded) := by
  have hhead := h.growing room
  have hlength := h.perm.length_eq
  rw [List.length_take] at hlength
  refine ⟨fun _ => hhead, ?_⟩
  have hwindow := h.window
  rw [hhead, List.drop_zero, List.take_zero, List.append_nil, List.take_of_length_le (by omega)] at hwindow
  rw [hhead, List.drop_zero, List.take_zero, List.append_nil, hwindow,
    List.take_of_length_le (by rw [List.length_cons]; omega), List.reverse_cons]

theorem oldest (h : Reads ring head capacity recorded) (inBounds : head < ring.length) :
    (recorded.take capacity).getLast? = some ring[head] := by
  have hwindow := h.window
  rw [List.drop_eq_getElem_cons inBounds, List.cons_append] at hwindow
  rw [← List.head?_reverse, ← hwindow, List.head?_cons]

/-- A full ring forgets the item at its head. -/
theorem overwrite (h : Reads ring head capacity recorded) (full : ring.length = capacity)
    (inBounds : head < ring.length) (x : α) :
    Reads (ring.set head x) ((head + 1) % capacity) capacity (x :: recorded) := by
  refine ⟨fun hroom => absurd hroom (by rw [List.length_set]; omega), ?_⟩
  -- past its end, the ring is read from its start
  have hwrap : (ring.set head x).drop ((head + 1) % capacity) ++ (ring.set head x).take ((head + 1) % capacity) =
      (ring.set head x).drop (head + 1) ++ (ring.set head x).take (head + 1) := by
    by_cases hend : head + 1 < capacity
    · rw [Nat.mod_eq_of_lt hend]
    · have hcap : head + 1 = capacity := by omega
      have hlength : (ring.set head x).length = capacity := by rw [List.length_set, full]
      rw [hcap, Nat.mod_self, List.drop_zero, List.take_zero, List.append_nil,
        List.drop_of_length_le hlength.le, List.take_of_length_le hlength.le, List.nil_append]
  have hwindow := h.window
  rw [List.drop_eq_getElem_cons inBounds, List.cons_append] at hwindow
  have hrest := congrArg List.tail hwindow
  rw [List.tail_cons, List.tail_reverse] at hrest
  have htake : (ring.set head x).take (head + 1) = ring.take head ++ [x] := by
    rw [List.take_add_one, List.getElem?_set_self inBounds, List.take_set_of_le le_rfl, Option.toList_some]
  have hlength := h.perm.length_eq
  rw [full] at hlength
  have hshort : (recorded.take capacity).dropLast = recorded.take (capacity - 1) := by
    rw [List.dropLast_eq_take, ← hlength, List.take_take, Nat.min_eq_left (Nat.sub_le _ _)]
  obtain ⟨n, rfl⟩ : ∃ n, capacity = n + 1 := ⟨capacity - 1, by omega⟩
  rw [hwrap, List.drop_set_of_lt (Nat.lt_succ_self head), htake, ← List.append_assoc, hrest, hshort,
    List.take_succ_cons, List.reverse_cons, Nat.add_sub_cancel]

end Reads

end SlidingWindow
