import Rtdp.Core.Buffers.Pushes

/-!
# Pushes out of order

Frames of one window have slots of their own, so the slots of a ring do not
depend on the order in which they are pushed. Its bounds do: `min_sequence` is
the first sequence pushed and `max_sequence` the last, and `get` hides what lies
outside them.
-/

namespace Rtdp

namespace BoundedRingBuffer

/-- Distinct sequences within one capacity of each other. -/
structure OneWindow (capacity : UInt64) (frames : List OwnedFrame) : Prop where
  distinct : frames.Pairwise fun f g => f.seq ≠ g.seq
  close : ∀ f ∈ frames, ∀ g ∈ frames, f.seq.toNat < g.seq.toNat + capacity.toNat

/-- Every frame can be retrieved, and the bounds are those of the frames. -/
structure OrderFree (ring : BoundedRingBuffer) (frames : List OwnedFrame) : Prop where
  retrievable : ∀ f ∈ frames, ring.get f.seq = some f
  smallest : ∀ s, ring.minSequence = some s ↔ (∃ f ∈ frames, f.seq = s) ∧ ∀ f ∈ frames, s ≤ f.seq
  largest : ∀ s, ring.maxSequence = some s ↔ (∃ f ∈ frames, f.seq = s) ∧ ∀ f ∈ frames, f.seq ≤ s

/-- The first frame has the smallest sequence and the last frame the largest. -/
structure EndsInOrder (frames : List OwnedFrame) : Prop where
  first : ∀ first ∈ frames.head?, ∀ f ∈ frames, first.seq ≤ f.seq
  last : ∀ last ∈ frames.getLast?, ∀ f ∈ frames, f.seq ≤ last.seq

variable {capacity : UInt64} {pos : 0 < capacity} {frames : List OwnedFrame} {f g : OwnedFrame}

namespace OneWindow

theorem of_concat (h : OneWindow capacity (frames ++ [f])) : OneWindow capacity frames where
  distinct := (List.pairwise_append.mp h.distinct).1
  close := fun g hg g' hg' => h.close g (List.mem_append_left _ hg) g' (List.mem_append_left _ hg')

theorem min (h : OneWindow capacity frames) :
    (pushAll capacity pos frames).minSequence = frames.head?.map OwnedFrame.seq := by
  induction frames using List.reverseRecOn with
  | nil => rfl
  | append_singleton frames f ih =>
    have hmin := ih h.of_concat
    rw [pushAll_concat]
    cases frames with
    | nil => exact push_min_of_none hmin
    | cons first frames =>
      obtain ⟨oldest, holdest, hnat⟩ := push_min_of_some (f := f) hmin
      -- no frame of the window is a whole round ahead of the first one
      have hclose := h.close f (by simp) first (by simp)
      rw [pushAll_capacity, if_neg (by omega)] at hnat
      rw [holdest, UInt64.toNat_inj.mp hnat]
      rfl

theorem max : (pushAll capacity pos frames).maxSequence = frames.getLast?.map OwnedFrame.seq := by
  rw [pushAll_pushed.max, List.head?_reverse]

theorem slot_inj (h : OneWindow capacity frames) (hf : f ∈ frames) (hg : g ∈ frames)
    (same : f.seq.toNat % capacity.toNat = g.seq.toNat % capacity.toNat) : f.seq = g.seq := by
  have hfg := h.close f hf g hg
  have hgf := h.close g hg f hf
  apply UInt64.toNat_inj.mp
  rcases Nat.lt_trichotomy f.seq.toNat g.seq.toNat with hlt | heq | hgt
  · have := DirectMapped.le_of_residue same hlt
    omega
  · exact heq
  · have := DirectMapped.le_of_residue same.symm hgt
    omega

/-- A pushed frame is found exactly if the bounds cover it. -/
theorem get_iff (h : OneWindow capacity frames) (hf : f ∈ frames) :
    (pushAll capacity pos frames).get f.seq = some f ↔ (pushAll capacity pos frames).Covers f.seq := by
  rw [pushAll_pushed.get_iff]
  refine and_iff_left ⟨rfl, ?_⟩
  have hdistinct : frames.reverse.Pairwise fun f g => f.seq ≠ g.seq :=
    List.pairwise_reverse.mpr (h.distinct.imp Ne.symm)
  obtain ⟨g, hfind, hslot, hg, hcase⟩ :=
    DirectMapped.exists_find
      (p := fun g => (pushAll capacity pos frames).index g.seq = (pushAll capacity pos frames).index f.seq)
      hdistinct (List.mem_reverse.mpr hf) rfl
  rcases hcase with rfl | hne
  · exact hfind
  · rw [index, index, UInt64.toNat_mod, UInt64.toNat_mod, pushAll_capacity] at hslot
    exact absurd (h.slot_inj (List.mem_reverse.mp hg) hf hslot) hne

end OneWindow

/-- An extreme frame gives the only bound that some frame meets. -/
theorem extreme_iff {r : UInt64 → UInt64 → Prop} (antisymm : ∀ a b, r a b → r b a → a = b)
    {o : Option OwnedFrame} (mem : ∀ x ∈ o, x ∈ frames) (found : o = none → frames = [])
    (extreme : ∀ x ∈ o, ∀ f ∈ frames, r x.seq f.seq) (s : UInt64) :
    o.map OwnedFrame.seq = some s ↔ (∃ f ∈ frames, f.seq = s) ∧ ∀ f ∈ frames, r s f.seq := by
  cases o with
  | none => simp [found rfl]
  | some x =>
    rw [Option.map_some, Option.some_inj]
    constructor
    · rintro rfl
      exact ⟨⟨x, mem x rfl, rfl⟩, extreme x rfl⟩
    · rintro ⟨⟨f, hf, rfl⟩, hs⟩
      exact antisymm _ _ (extreme x rfl f hf) (hs x (mem x rfl))

end BoundedRingBuffer

open BoundedRingBuffer

/-- **Push order**: the frames of one window can be pushed in any order that starts with the
smallest sequence and ends with the largest, and in no other. -/
theorem ring_order_free_iff (capacity : UInt64) (pos : 0 < capacity) (frames : List OwnedFrame)
    (window : OneWindow capacity frames) :
    OrderFree (pushAll capacity pos frames) frames ↔ EndsInOrder frames := by
  have hmin : (pushAll capacity pos frames).minSequence = _ := window.min
  have hmax : (pushAll capacity pos frames).maxSequence = _ := OneWindow.max
  constructor
  · intro free
    constructor
    · intro first hfirst
      rw [hfirst] at hmin
      exact ((free.smallest _).mp hmin).2
    · intro last hlast
      rw [hlast] at hmax
      exact ((free.largest _).mp hmax).2
  · intro ends
    refine ⟨fun f hf => (window.get_iff hf).mpr ?_, fun s => ?_, fun s => ?_⟩
    · have hne := List.ne_nil_of_mem hf
      have hfirst := List.head?_eq_some_head hne
      have hlast := List.getLast?_eq_some_getLast hne
      rw [hfirst] at hmin
      rw [hlast] at hmax
      exact ⟨_, _, hmin, hmax, ends.first _ hfirst f hf, ends.last _ hlast f hf⟩
    · rw [hmin]
      exact extreme_iff (fun _ _ => UInt64.le_antisymm) (fun _ => List.mem_of_head?)
        List.head?_eq_none_iff.mp ends.first s
    · rw [hmax]
      exact extreme_iff (r := fun a b => b ≤ a) (fun _ _ hab hba => UInt64.le_antisymm hba hab)
        (fun _ => List.mem_of_getLast?) List.getLast?_eq_none_iff.mp ends.last s

/-- Four frames in a ring of five, an inner one late. -/
theorem ring_order_free_iff_inner :
    OrderFree (pushAll 5 (by decide) [.newData 1 1 0 7 [], .newData 1 3 0 7 [], .newData 1 2 0 7 [], .newData 1 4 0 7 []])
        [.newData 1 1 0 7 [], .newData 1 3 0 7 [], .newData 1 2 0 7 [], .newData 1 4 0 7 []] ↔
      EndsInOrder [.newData 1 1 0 7 [], .newData 1 3 0 7 [], .newData 1 2 0 7 [], .newData 1 4 0 7 []] :=
  ring_order_free_iff 5 (by decide) _ ⟨by decide, by decide⟩

/-- Two frames pushed in the wrong order: the bounds are crossed, and neither is found. -/
theorem ring_order_matters :
    OneWindow 4 [.newData 1 2 0 7 [], .newData 1 1 0 7 []] ∧
      ¬ OrderFree (pushAll 4 (by decide) [.newData 1 2 0 7 [], .newData 1 1 0 7 []])
        [.newData 1 2 0 7 [], .newData 1 1 0 7 []] := by
  refine ⟨⟨by decide, by decide⟩, fun free => ?_⟩
  exact absurd (free.retrievable (.newData 1 1 0 7 []) (by decide)) (by decide)

end Rtdp
