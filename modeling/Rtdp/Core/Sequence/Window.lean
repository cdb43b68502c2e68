import Rtdp.Core.Sequence.Dedup
import Rtdp.Lib.Runs
import Rtdp.Lib.SlidingWindow
import Mathlib.Data.Finset.Dedup
import Mathlib.Data.List.Perm.Basic

/-!
# The duplicate filter is a sliding window

The filter is run beside a log of the keys it records. Whatever is called, its
history is the end of the log, in a circular list, and its hash set is the set
of that history: it answers `true` for the last `capacity` keys recorded and for
no others.
-/

namespace Rtdp

/-- The calls that change a filter. -/
inductive FilterCall where
  | isDuplicateAndRecord (key : DuplicateKey)
  | clear

/-- A filter, and the keys it has recorded since it was last cleared, newest first. -/
structure FilterLog where
  filter : DuplicateFilter
  recorded : List DuplicateKey

namespace FilterLog

def new (capacity : Nat) (pos : 0 < capacity) : FilterLog := ⟨DuplicateFilter.new capacity pos, []⟩

def step (self : FilterLog) : FilterCall → FilterLog
  | .isDuplicateAndRecord key =>
    match self.filter.isDuplicateAndRecord key with
    | (true, filter) => { self with filter }
    | (false, filter) => { filter, recorded := key :: self.recorded }
  | .clear => { filter := self.filter.clear, recorded := [] }

/-- The last keys recorded, as many as the filter has room for, newest first. -/
def window (self : FilterLog) : List DuplicateKey := self.recorded.take self.filter.capacity

/-- The hash set and the circular history are in step with the log. -/
structure Sliding (σ : FilterLog) : Prop where
  reads : SlidingWindow.Reads σ.filter.ringHistory σ.filter.head σ.filter.capacity σ.recorded
  keys : σ.filter.recentKeys = σ.filter.ringHistory.toFinset
  nodup : σ.filter.ringHistory.Nodup

variable {σ : FilterLog} {key : DuplicateKey}

theorem sliding_new (capacity : Nat) (pos : 0 < capacity) : (new capacity pos).Sliding where
  reads := SlidingWindow.Reads.empty capacity
  keys := rfl
  nodup := List.nodup_nil

/-- A call that finds its key changes nothing; one that does not records it. -/
theorem step_key (σ : FilterLog) (key : DuplicateKey) :
    (key ∈ σ.filter.recentKeys ∧ σ.step (.isDuplicateAndRecord key) = σ) ∨
      (key ∉ σ.filter.recentKeys ∧ ∃ d, DuplicateFilter.Records σ.filter key d ∧
        σ.step (.isDuplicateAndRecord key) = ⟨d, key :: σ.recorded⟩) := by
  by_cases hmem : key ∈ σ.filter.recentKeys
  · refine Or.inl ⟨hmem, ?_⟩
    simp only [step, DuplicateFilter.isDuplicateAndRecord_known hmem]
  · obtain ⟨d, hd, records⟩ := DuplicateFilter.isDuplicateAndRecord_new hmem
    refine Or.inr ⟨hmem, d, records, ?_⟩
    simp only [step, hd]

namespace Sliding

theorem mem_recentKeys (h : σ.Sliding) : key ∈ σ.filter.recentKeys ↔ key ∈ σ.window := by
  rw [h.keys, List.mem_toFinset, h.reads.perm.mem_iff, window]

theorem clear (σ : FilterLog) : (σ.step .clear).Sliding where
  reads := SlidingWindow.Reads.empty _
  keys := rfl
  nodup := List.nodup_nil

/-- A new key goes to the end of a history that grows, or over the oldest key of a full one. -/
theorem record (h : σ.Sliding) {d : DuplicateFilter} (new : key ∉ σ.filter.recentKeys)
    (records : DuplicateFilter.Records σ.filter key d) : Sliding ⟨d, key :: σ.recorded⟩ := by
  have hfresh : key ∉ σ.filter.ringHistory := by rwa [h.keys, List.mem_toFinset] at new
  cases records with
  | grown room history keys head capacity =>
    refine ⟨?_, ?_, ?_⟩
    · rw [history, head, capacity]
      exact h.reads.append room key
    · rw [keys, history, h.keys, List.toFinset_append, Finset.insert_eq, Finset.union_comm]
      rfl
    · rw [history]
      exact List.nodup_append.mpr ⟨h.nodup, List.nodup_singleton key, fun a ha b hb heq =>
        hfresh (by rwa [heq, List.mem_singleton.mp hb] at ha)⟩
  | evicted full inBounds history keys head capacity =>
    have hset := List.set_perm_cons_eraseIdx inBounds key
    have hold := List.getElem_cons_eraseIdx_perm inBounds
    have hnodup := List.nodup_cons.mp (hold.nodup_iff.mpr h.nodup)
    refine ⟨?_, ?_, ?_⟩
    · rw [history, head, capacity]
      exact h.reads.overwrite full inBounds key
    · rw [keys, history, List.toFinset_eq_of_perm _ _ hset, h.keys, ← List.toFinset_eq_of_perm _ _ hold,
        List.toFinset_cons, List.toFinset_cons, Finset.erase_insert (by simpa using hnodup.1)]
    · rw [history]
      refine hset.nodup_iff.mpr (List.nodup_cons.mpr ⟨fun hkey => hfresh ?_, hnodup.2⟩)
      exact List.mem_of_mem_eraseIdx hkey

/-- **Step** -/
theorem step (h : σ.Sliding) (call : FilterCall) : (σ.step call).Sliding := by
  cases call with
  | clear => exact clear σ
  | isDuplicateAndRecord key =>
    obtain ⟨-, hsame⟩ | ⟨new, d, records, hstep⟩ := step_key σ key
    · rw [hsame]
      exact h
    · rw [hstep]
      exact h.record new records

end Sliding

/-- **Run** -/
theorem sliding_run (capacity : Nat) (pos : 0 < capacity) (calls : List FilterCall) :
    (Runs.run step (new capacity pos) calls).Sliding :=
  Runs.always Sliding (fun _ call h => h.step call) (sliding_new capacity pos)

theorem step_capacity (σ : FilterLog) (call : FilterCall) :
    (σ.step call).filter.capacity = σ.filter.capacity := by
  cases call with
  | clear => rfl
  | isDuplicateAndRecord key =>
    obtain ⟨-, hsame⟩ | ⟨-, d, records, hstep⟩ := step_key σ key
    · rw [hsame]
    · rw [hstep]
      exact records.capacity_eq

end FilterLog

/-- The filter of the log answers and stores as a sliding window of its capacity does. -/
structure SlidingFilter (capacity : Nat) (σ : FilterLog) : Prop where
  answer : ∀ key, (σ.filter.isDuplicateAndRecord key).1 = true ↔ key ∈ σ.recorded.take capacity
  keys : σ.filter.recentKeys = σ.filter.ringHistory.toFinset
  nodup : σ.filter.ringHistory.Nodup
  bounded : σ.filter.ringHistory.length ≤ capacity
  oldest : σ.filter.ringHistory.length = capacity →
    σ.filter.ringHistory[σ.filter.head]? = (σ.recorded.take capacity).getLast?

/-- **The duplicate filter** is a sliding window after any calls. -/
theorem filter_sliding (capacity : Nat) (pos : 0 < capacity) (calls : List FilterCall) :
    SlidingFilter capacity (Runs.run FilterLog.step (FilterLog.new capacity pos) calls) := by
  have sliding := FilterLog.sliding_run capacity pos calls
  have hcapacity : (Runs.run FilterLog.step (FilterLog.new capacity pos) calls).filter.capacity = capacity :=
    Runs.always (fun σ : FilterLog => σ.filter.capacity = capacity)
      (fun σ call h => (σ.step_capacity call).trans h) rfl
  generalize Runs.run FilterLog.step (FilterLog.new capacity pos) calls = σ at sliding hcapacity
  subst hcapacity
  refine ⟨fun key => ?_, sliding.keys, sliding.nodup, σ.filter.length_le, fun full => ?_⟩
  · rw [DuplicateFilter.isDuplicateAndRecord_fst, sliding.mem_recentKeys]
    rfl
  · have inBounds : σ.filter.head < σ.filter.ringHistory.length := full ▸ σ.filter.head_lt
    rw [sliding.reads.oldest inBounds, List.getElem?_eq_getElem inBounds]

/-- Three keys through a filter of two. -/
theorem filter_sliding_evicted :
    SlidingFilter 2 (Runs.run FilterLog.step (FilterLog.new 2 (by decide))
      [.isDuplicateAndRecord ⟨1, 1, 1⟩, .isDuplicateAndRecord ⟨1, 1, 2⟩, .isDuplicateAndRecord ⟨1, 1, 3⟩]) :=
  filter_sliding 2 (by decide) _

end Rtdp
