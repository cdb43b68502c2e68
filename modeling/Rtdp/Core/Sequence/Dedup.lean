import Mathlib.Data.UInt
import Mathlib.Data.Finset.Insert
import Mathlib.Tactic

/-!
# The duplicate filter (`core/src/sequence/dedup.rs`)

A bounded window of recently recorded keys: a hash set for lookups and a
circular history that decides which key to evict. A filter carries the bounds
that keep its history indexing in range, so an empty or overfull window cannot
be built.
-/

namespace Rtdp

/-- Consumer duplicate key: `(stream_id, publisher_id, sequence)`. -/
structure DuplicateKey where
  streamId : UInt64
  publisherId : UInt64
  sequence : UInt64
  deriving DecidableEq, Repr

structure DuplicateFilter where
  recentKeys : Finset DuplicateKey
  ringHistory : List DuplicateKey
  head : Nat
  capacity : Nat
  length_le : ringHistory.length ≤ capacity
  head_lt : head < capacity

namespace DuplicateFilter

def new (capacity : Nat) (pos : 0 < capacity) : DuplicateFilter where
  recentKeys := ∅
  ringHistory := []
  head := 0
  capacity := capacity
  length_le := Nat.zero_le _
  head_lt := pos

/-- Check if the key is a duplicate. If it is not, record it and return `false`. -/
def isDuplicateAndRecord (self : DuplicateFilter) (key : DuplicateKey) : Bool × DuplicateFilter :=
  if key ∈ self.recentKeys then (true, self)
  else if h : self.ringHistory.length < self.capacity then
    (false,
      { self with
        ringHistory := self.ringHistory ++ [key]
        recentKeys := insert key self.recentKeys
        length_le := by simpa using h })
  else
    have full : self.ringHistory.length = self.capacity := by have := self.length_le; omega
    have inBounds : self.head < self.ringHistory.length := full ▸ self.head_lt
    -- evict the oldest key
    let oldKey := self.ringHistory[self.head]
    (false,
      { self with
        recentKeys := insert key (self.recentKeys.erase oldKey)
        ringHistory := self.ringHistory.set self.head key
        head := (self.head + 1) % self.capacity
        length_le := by rw [List.length_set]; exact self.length_le
        head_lt := Nat.mod_lt _ (by have := self.head_lt; omega) })

def clear (self : DuplicateFilter) : DuplicateFilter where
  recentKeys := ∅
  ringHistory := []
  head := 0
  capacity := self.capacity
  length_le := Nat.zero_le _
  head_lt := by have := self.head_lt; omega

variable {d : DuplicateFilter} {key k : DuplicateKey}

/-- The answer is the membership test. -/
@[simp] theorem isDuplicateAndRecord_fst : (d.isDuplicateAndRecord key).1 = true ↔ key ∈ d.recentKeys := by
  unfold isDuplicateAndRecord
  split_ifs with h <;> simp [h]

theorem isDuplicateAndRecord_known (h : key ∈ d.recentKeys) : d.isDuplicateAndRecord key = (true, d) :=
  if_pos h

/-- How a filter records a key. -/
inductive Records (d : DuplicateFilter) (key : DuplicateKey) (d' : DuplicateFilter) : Prop where
  | grown (room : d.ringHistory.length < d.capacity)
      (history : d'.ringHistory = d.ringHistory ++ [key])
      (keys : d'.recentKeys = insert key d.recentKeys)
      (head : d'.head = d.head)
      (capacity : d'.capacity = d.capacity)
  | evicted (full : d.ringHistory.length = d.capacity) (inBounds : d.head < d.ringHistory.length)
      (history : d'.ringHistory = d.ringHistory.set d.head key)
      (keys : d'.recentKeys = insert key (d.recentKeys.erase d.ringHistory[d.head]))
      (head : d'.head = (d.head + 1) % d.capacity)
      (capacity : d'.capacity = d.capacity)

theorem Records.capacity_eq {d' : DuplicateFilter} (h : Records d key d') : d'.capacity = d.capacity := by
  cases h <;> assumption

theorem isDuplicateAndRecord_new (h : key ∉ d.recentKeys) :
    ∃ d', d.isDuplicateAndRecord key = (false, d') ∧ Records d key d' := by
  unfold isDuplicateAndRecord
  rw [if_neg h]
  by_cases room : d.ringHistory.length < d.capacity
  · rw [dif_pos room]
    exact ⟨_, rfl, .grown room rfl rfl rfl rfl⟩
  · rw [dif_neg room]
    have full : d.ringHistory.length = d.capacity := Nat.le_antisymm d.length_le (Nat.not_lt.mp room)
    have inBounds : d.head < d.ringHistory.length := full ▸ d.head_lt
    exact ⟨_, rfl, .evicted full inBounds rfl rfl rfl rfl⟩

/-- Nothing but the key enters the window. -/
theorem recentKeys_subset (h : k ∈ (d.isDuplicateAndRecord key).2.recentKeys) :
    k = key ∨ k ∈ d.recentKeys := by
  unfold isDuplicateAndRecord at h
  split_ifs at h
  · exact .inr h
  · simpa using h
  · simp only [Finset.mem_insert, Finset.mem_erase] at h
    exact h.imp_right And.right

end DuplicateFilter

end Rtdp
