import Rtdp.Core.Buffers.Pushes

/-!
# Retention under ascending publication

A ring to which frames are pushed in ascending order retains exactly the frames
less than its capacity below the last one. Slots of sequences that were skipped
still hold frames from earlier rounds; the retained interval hides them.
-/

namespace Rtdp

namespace BoundedRingBuffer

/-- The frame was pushed, less than the capacity below the last one. -/
def Retained (capacity : UInt64) (frames : List OwnedFrame) (f : OwnedFrame) : Prop :=
  f ∈ frames ∧ ∀ last ∈ frames.getLast?, last.seq.toNat - f.seq.toNat < capacity.toNat

/-- The ring has been pushed the frames of the history, newest first, in ascending order. -/
structure Published (ring : BoundedRingBuffer) (history : List OwnedFrame) : Prop
    extends ring.Pushed history where
  sorted : history.Pairwise fun f g => g.seq.toNat < f.seq.toNat
  window : ∀ minS, ring.minSequence = some minS → ∀ last ∈ history.head?,
    minS.toNat ≤ last.seq.toNat ∧
      ∀ f ∈ history, minS.toNat ≤ f.seq.toNat ↔ last.seq.toNat < f.seq.toNat + ring.capacity.toNat

namespace Published

variable {ring : BoundedRingBuffer} {history : List OwnedFrame} {f : OwnedFrame} {s a b : UInt64}

theorem fresh (capacity : UInt64) (pos : 0 < capacity) : (new capacity pos).Published [] where
  toPushed := Pushed.fresh capacity pos
  sorted := List.Pairwise.nil
  window := fun minS hmin => by cases hmin

theorem clear (ring : BoundedRingBuffer) : ring.clear.Published [] where
  toPushed := Pushed.clear ring
  sorted := List.Pairwise.nil
  window := fun minS hmin => by cases hmin

/-- **Step**: a frame above all others moves the window up to it. -/
theorem push (h : ring.Published history) (above : ∀ g ∈ history, g.seq.toNat < f.seq.toNat) :
    (ring.push f).Published (f :: history) := by
  refine ⟨h.toPushed.push f, List.pairwise_cons.mpr ⟨above, h.sorted⟩, ?_⟩
  intro minS hmin last hlast
  have hpos := ring.capacity_pos
  cases hlast
  rw [push_capacity]
  cases hold : ring.minSequence with
  | none =>
    rw [push_min_of_none hold] at hmin
    cases hmin
    refine ⟨le_rfl, ?_⟩
    rw [h.min_none.mp hold]
    simpa using hpos
  | some minS' =>
    obtain ⟨oldest, holdest, hnat⟩ := push_min_of_some (f := f) hold
    rw [holdest] at hmin
    cases hmin
    cases history with
    | nil => cases hold.symm.trans (h.min_none.mpr rfl)
    | cons last history =>
      have hlast := above last List.mem_cons_self
      obtain ⟨hle, hwindow⟩ := h.window minS' hold last rfl
      by_cases hround : minS'.toNat + ring.capacity.toNat ≤ f.seq.toNat
      · -- the bound advances to the first sequence of the new window
        rw [if_pos hround] at hnat
        refine ⟨by omega, fun g _ => ?_⟩
        omega
      · -- it stays, and so do the frames above it
        rw [if_neg hround] at hnat
        refine ⟨by omega, List.forall_mem_cons.mpr ⟨by omega, fun g hg => ?_⟩⟩
        have hg := hwindow g hg
        omega

/-- The retained interval covers a pushed frame exactly if it lies in the window. -/
theorem covers_iff (h : ring.Published history) (hf : f ∈ history) : ring.Covers f.seq ↔
    ∀ last ∈ history.head?, last.seq.toNat < f.seq.toNat + ring.capacity.toNat := by
  cases history with
  | nil => cases hf
  | cons last history =>
    have hmax : ring.maxSequence = some last.seq := h.max
    have hle : f.seq ≤ last.seq := by
      rw [UInt64.le_iff_toNat_le]
      rcases List.mem_cons.mp hf with rfl | hf
      · exact le_rfl
      · exact ((List.pairwise_cons.mp h.sorted).1 f hf).le
    cases hmin : ring.minSequence with
    | none => cases h.min_none.mp hmin
    | some minS =>
      have hwindow := (h.window minS hmin last rfl).2 f hf
      rw [Covers, hmin, hmax]
      simp only [Option.some.injEq, exists_and_left, exists_eq_left', List.head?_cons,
        Option.mem_def, forall_eq']
      rw [and_iff_left hle, UInt64.le_iff_toNat_le, hwindow]

/-- No later frame has overwritten a frame of the window. -/
theorem get_iff (h : ring.Published history) : ring.get s = some f ↔
    f ∈ history ∧ f.seq = s ∧
      ∀ last ∈ history.head?, last.seq.toNat < f.seq.toNat + ring.capacity.toNat := by
  rw [h.toPushed.get_iff]
  constructor
  · rintro ⟨hcovers, rfl, hfind⟩
    have hf := List.mem_of_find?_eq_some hfind
    exact ⟨hf, rfl, (h.covers_iff hf).mp hcovers⟩
  · rintro ⟨hf, rfl, hwindow⟩
    refine ⟨(h.covers_iff hf).mpr hwindow, rfl, ?_⟩
    obtain ⟨g, hfind, hslot, hg, hcase⟩ :=
      DirectMapped.exists_find (p := fun g => ring.index g.seq = ring.index f.seq) h.sorted hf rfl
    rcases hcase with rfl | hnewer
    · exact hfind
    · -- a newer frame of its slot is a whole round above it
      exfalso
      rw [index, index, UInt64.toNat_mod, UInt64.toNat_mod] at hslot
      have hround := DirectMapped.le_of_residue hslot.symm hnewer
      cases history with
      | nil => cases hg
      | cons last history =>
        have hlast := hwindow last rfl
        rcases List.mem_cons.mp hg with rfl | hg
        · omega
        · have hgt := (List.pairwise_cons.mp h.sorted).1 g hg
          omega

end Published

variable {capacity : UInt64} {pos : 0 < capacity} {frames : List OwnedFrame} {f : OwnedFrame} {s : UInt64}

/-- **Run**: ascending pushes keep what a push keeps. -/
theorem pushAll_published (ascending : frames.Pairwise fun f g => f.seq < g.seq) :
    (pushAll capacity pos frames).Published frames.reverse := by
  induction frames using List.reverseRecOn with
  | nil => exact Published.fresh capacity pos
  | append_singleton frames f ih =>
    obtain ⟨hframes, -, hf⟩ := List.pairwise_append.mp ascending
    rw [pushAll_concat, List.reverse_concat]
    refine (ih hframes).push fun g hg => ?_
    exact UInt64.lt_iff_toNat_lt.mp (hf g (List.mem_reverse.mp hg) f List.mem_cons_self)

theorem get_pushAll (ascending : frames.Pairwise fun f g => f.seq < g.seq) :
    (pushAll capacity pos frames).get s = some f ↔ Retained capacity frames f ∧ f.seq = s := by
  have hpos := (pushAll capacity pos frames).capacity_pos
  rw [(pushAll_published ascending).get_iff, Retained, and_assoc]
  rw [pushAll_capacity] at hpos ⊢
  rw [List.mem_reverse, List.head?_reverse]
  refine and_congr_right fun _ => and_comm.trans (and_congr_left fun _ => ?_)
  refine forall_congr' fun last => forall_congr' fun _ => ?_
  omega

end BoundedRingBuffer

open BoundedRingBuffer

/-- The ring answers for exactly the retained ones of the frames. -/
structure ExactRetention (capacity : UInt64) (frames : List OwnedFrame) (ring : BoundedRingBuffer) : Prop where
  get : ∀ s f, ring.get s = some f ↔ Retained capacity frames f ∧ f.seq = s
  answered : ∀ fromSeq toSeq, fromSeq ≤ toSeq →
    ((∃ out, ring.getRange fromSeq toSeq = .ok out) ↔
      ∀ s, fromSeq ≤ s → s ≤ toSeq → ∃ f, Retained capacity frames f ∧ f.seq = s)
  ordered : ∀ fromSeq toSeq out, ring.getRange fromSeq toSeq = .ok out →
    (out.map fun f => f.seq.toNat) = List.range' fromSeq.toNat (toSeq.toNat + 1 - fromSeq.toNat)
  complete : ∀ fromSeq toSeq out, ring.getRange fromSeq toSeq = .ok out →
    ∀ f, f ∈ out ↔ Retained capacity frames f ∧ fromSeq ≤ f.seq ∧ f.seq ≤ toSeq

/-- **Exact retention** under ascending publication. -/
theorem ring_retention_exact (capacity : UInt64) (pos : 0 < capacity) (frames : List OwnedFrame)
    (ascending : frames.Pairwise fun f g => f.seq < g.seq) :
    ExactRetention capacity frames (pushAll capacity pos frames) where
  get := fun s f => get_pushAll ascending
  answered := by
    intro fromSeq toSeq hle
    simp only [getRange_ok_iff _ hle, get_pushAll ascending]
  ordered := by
    intro fromSeq toSeq out hout
    exact (getRange_ok hout).range
  complete := by
    intro fromSeq toSeq out hout f
    have hrange := getRange_ok hout
    constructor
    · intro hf
      have hmem := List.mem_map_of_mem (f := OwnedFrame.seq) hf
      rw [hrange.seqs] at hmem
      exact ⟨((get_pushAll ascending).mp (hrange.found f hf)).1, of_mem_consecutive_range hmem⟩
    · rintro ⟨retained, ha, hb⟩
      exact hrange.mem ((get_pushAll ascending).mpr ⟨retained, rfl⟩) ha hb

/-- Frames 4 and 5 are skipped. -/
def skipping : List OwnedFrame :=
  [.newData 1 1 0 7 [], .newData 1 2 0 7 [], .newData 1 3 0 7 [], .newData 1 6 0 7 []]

theorem ring_retention_exact_skipping : ExactRetention 3 skipping (pushAll 3 (by decide) skipping) :=
  ring_retention_exact 3 (by decide) skipping (by decide)

/-- Frame 1 still stands in the slot of 4. -/
example : (pushAll 3 (by decide) skipping).Holds (.newData 1 1 0 7 []) ∧
    (pushAll 3 (by decide) skipping).get 1 = none ∧ (pushAll 3 (by decide) skipping).get 4 = none := by
  decide

end Rtdp
