import Rtdp.Core.Buffers.Retention
import Rtdp.Lib.Counter

/-!
# What a refused range names

A range that cannot be answered is refused with an interval of sequences. Below
the retained interval it reaches up to `min_sequence`, above it down to
`max_sequence`: the interval is part of the request exactly if the request
touches the retained interval.
-/

namespace Rtdp

namespace BoundedRingBuffer

/-- The interval is a part of `fromSeq..=toSeq`, not empty, and nothing of it can be retrieved. -/
structure NamesMissing (ring : BoundedRingBuffer) (fromSeq toSeq first last : UInt64) : Prop where
  start : fromSeq ≤ first
  nonempty : first ≤ last
  stop : last ≤ toSeq
  missing : ∀ s, first ≤ s → s ≤ last → ring.get s = none

/-- The range overlaps the retained interval, `0..=0` if nothing was pushed, or lies next to it. -/
def Touches (ring : BoundedRingBuffer) (fromSeq toSeq : UInt64) : Prop :=
  (ring.minSequence.getD 0).toNat ≤ toSeq.toNat + 1 ∧ fromSeq.toNat ≤ (ring.maxSequence.getD 0).toNat + 1

variable {ring : BoundedRingBuffer} {history : List OwnedFrame} {a b x y : UInt64} {code : ErrorCode}

theorem Published.bounds_le (h : ring.Published history) :
    (ring.minSequence.getD 0).toNat ≤ (ring.maxSequence.getD 0).toNat := by
  cases hmin : ring.minSequence with
  | none => exact Nat.zero_le _
  | some minS =>
    cases history with
    | nil => cases hmin.symm.trans (h.min_none.mpr rfl)
    | cons last history =>
      rw [h.max]
      exact (h.window minS hmin last rfl).1

/-- Below the retained interval. -/
theorem namesMissing_below (below : a < ring.minSequence.getD 0) :
    ring.NamesMissing a b a (ring.minSequence.getD 0 - 1) ↔
      (ring.minSequence.getD 0).toNat ≤ b.toNat + 1 := by
  have hbelow := UInt64.lt_iff_toNat_lt.mp below
  have hone : 1 ≤ ring.minSequence.getD 0 := by
    rw [UInt64.le_iff_toNat_le, UInt64.toNat_one]
    omega
  have hlast := UInt64.toNat_sub_of_le _ _ hone
  rw [UInt64.toNat_one] at hlast
  constructor
  · intro names
    have hstop := UInt64.le_iff_toNat_le.mp names.stop
    omega
  · intro htouch
    refine ⟨UInt64.le_refl a, ?_, ?_, fun s _ hs => get_outside (Or.inl ?_)⟩
    · rw [UInt64.le_iff_toNat_le]
      omega
    · rw [UInt64.le_iff_toNat_le]
      omega
    · rw [UInt64.le_iff_toNat_le] at hs
      rw [UInt64.lt_iff_toNat_lt]
      omega

/-- Above it. -/
theorem namesMissing_above (above : ring.maxSequence.getD 0 < b) :
    ring.NamesMissing a b (ring.maxSequence.getD 0 + 1) b ↔
      a.toNat ≤ (ring.maxSequence.getD 0).toNat + 1 := by
  have hfirst := Counter.toNat_succ_of_lt above
  have habove := UInt64.lt_iff_toNat_lt.mp above
  constructor
  · intro names
    have hstart := UInt64.le_iff_toNat_le.mp names.start
    omega
  · intro htouch
    refine ⟨?_, ?_, UInt64.le_refl b, fun s hs _ => get_outside (Or.inr ?_)⟩
    · rw [UInt64.le_iff_toNat_le]
      omega
    · rw [UInt64.le_iff_toNat_le]
      omega
    · rw [UInt64.le_iff_toNat_le] at hs
      rw [UInt64.lt_iff_toNat_lt]
      omega

theorem Published.namesMissing_iff (h : ring.Published history) (hle : a ≤ b)
    (refused : ring.getRange a b = .error (code, x, y)) :
    ring.NamesMissing a b x y ↔ ring.Touches a b := by
  have hbounds := h.bounds_le
  have hab := UInt64.le_iff_toNat_le.mp hle
  have hcase := ring.getRange_cases a b
  rw [refused] at hcase
  rw [Touches]
  cases hcase with
  | expired below =>
    have hbelow := UInt64.lt_iff_toNat_lt.mp below
    rw [namesMissing_below below, and_iff_left (by omega)]
  | unpublished within above =>
    have hwithin := UInt64.le_iff_toNat_le.mp within
    have habove := UInt64.lt_iff_toNat_lt.mp above
    rw [namesMissing_above above, and_iff_right (by omega)]
  | hole within upTo mem missing =>
    -- the request lies inside the retained interval, and so does the hole
    have hwithin := UInt64.le_iff_toNat_le.mp within
    have hupTo := UInt64.le_iff_toNat_le.mp upTo
    obtain ⟨ha, hb⟩ := of_mem_consecutive_range mem
    refine iff_of_true ⟨ha, UInt64.le_refl x, hb, fun s hs hs' => ?_⟩ (by omega)
    rw [UInt64.le_antisymm hs' hs]
    exact missing

end BoundedRingBuffer

open BoundedRingBuffer

/-- **Refusals** under ascending publication name requested, unavailable sequences exactly when the
request touches the retained interval. -/
theorem refusal_names_missing_iff (capacity : UInt64) (pos : 0 < capacity) (frames : List OwnedFrame)
    (ascending : frames.Pairwise fun f g => f.seq < g.seq) {fromSeq toSeq first last : UInt64}
    {code : ErrorCode} (hle : fromSeq ≤ toSeq)
    (refused : (pushAll capacity pos frames).getRange fromSeq toSeq = .error (code, first, last)) :
    (pushAll capacity pos frames).NamesMissing fromSeq toSeq first last ↔
      (pushAll capacity pos frames).Touches fromSeq toSeq :=
  (pushAll_published ascending).namesMissing_iff hle refused

/-- A request across the end of what is retained. -/
theorem refusal_names_missing_iff_across :
    (pushAll 5 (by decide) [.newData 1 1 0 7 [], .newData 1 2 0 7 []]).NamesMissing 2 4 3 4 ↔
      (pushAll 5 (by decide) [.newData 1 1 0 7 [], .newData 1 2 0 7 []]).Touches 2 4 :=
  have refused : (pushAll 5 (by decide) [.newData 1 1 0 7 [], .newData 1 2 0 7 []]).getRange 2 4 =
      .error (.replayUnavailable, 3, 4) := rfl
  refusal_names_missing_iff 5 (by decide) _ (by decide) (by decide) refused

/-- A request for 1 and 2 below a ring of 10 and 11 is refused as 1 to 9. -/
theorem refusal_names_unrequested :
    (pushAll 5 (by decide) [.newData 1 10 0 7 [], .newData 1 11 0 7 []]).getRange 1 2 =
        .error (.replayUnavailable, 1, 9) ∧
      ¬ (pushAll 5 (by decide) [.newData 1 10 0 7 [], .newData 1 11 0 7 []]).NamesMissing 1 2 1 9 :=
  ⟨rfl, fun names => absurd names.stop (by decide)⟩

end Rtdp
