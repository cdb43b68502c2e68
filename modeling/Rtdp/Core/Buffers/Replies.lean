import Rtdp.Core.Buffers.Pushes
import Rtdp.Lib.Checked

/-!
# Replies of a ring

Frames may be pushed in any order, so `max_sequence` can lie below
`min_sequence` and slots can be stale. Whatever was pushed, the arithmetic of
`push` and `get_range` stays in range (`get` only compares), a reply is no longer
than the capacity, and its frames are the latest of their sequences.
-/

namespace Rtdp
open Checked

namespace BoundedRingBuffer

theorem length_stored (self : BoundedRingBuffer) (frame : OwnedFrame) :
    (self.buffer.set (self.index frame.header.sequence) (some frame)).length = self.capacity.toNat :=
  List.length_set.trans self.length_eq

/-- `push`, checked. -/
def pushChecked (self : BoundedRingBuffer) (frame : OwnedFrame) : Option BoundedRingBuffer :=
  let seq := frame.header.sequence
  let stored : BoundedRingBuffer :=
    { self with
      buffer := self.buffer.set (self.index seq) (some frame)
      length_eq := self.length_stored frame }
  match self.minSequence with
  | none => some { stored with minSequence := some seq, maxSequence := some seq }
  | some minS =>
    if seq > minS then do
      let ahead ← sub seq minS
      if ahead ≥ self.capacity then
        let oldest ← add (← sub seq self.capacity) 1
        some { stored with maxSequence := some seq, minSequence := some oldest }
      else some { stored with maxSequence := some seq, minSequence := some minS }
    else some { stored with maxSequence := some seq, minSequence := some minS }

def stepChecked (self : BoundedRingBuffer) : RingOp → Option BoundedRingBuffer
  | .push frame => self.pushChecked frame
  | .clear => some self.clear

/-- `get_range`, checked, with the number of frames it allocates room for. -/
def getRangeChecked (self : BoundedRingBuffer) (fromSeq toSeq : UInt64) :
    Option (Nat × Except (ErrorCode × UInt64 × UInt64) (List OwnedFrame)) :=
  let minS := self.minSequence.getD 0
  let maxS := self.maxSequence.getD 0
  if fromSeq < minS then some (0, .error (.replayUnavailable, fromSeq, saturatingSub minS 1))
  else if toSeq > maxS then do
    let first ← add maxS 1
    some (0, .error (.replayUnavailable, first, toSeq))
  else do
    let count ← add (← sub toSeq fromSeq) 1
    some (count.toNat, (consecutive fromSeq (toSeq.toNat + 1 - fromSeq.toNat)).mapM self.fetch)

variable {ring : BoundedRingBuffer} {history : List OwnedFrame} {a b : UInt64}

theorem pushChecked_eq (ring : BoundedRingBuffer) (frame : OwnedFrame) :
    ring.pushChecked frame = some (ring.push frame) := by
  unfold pushChecked push
  dsimp only
  cases ring.minSequence with
  | none => rfl
  | some minS =>
    dsimp only
    by_cases hgt : frame.header.sequence > minS
    · have hle : minS ≤ frame.header.sequence := UInt64.le_of_lt hgt
      rw [if_pos hgt, (Guarded.sub _ _).returns hle, Option.bind_eq_bind, Option.bind_some]
      by_cases hround : frame.header.sequence - minS ≥ ring.capacity
      · -- a frame a whole round ahead of `min_sequence` is at least the capacity
        have hcap : ring.capacity ≤ frame.header.sequence := by
          rw [ge_iff_le, UInt64.le_iff_toNat_le, UInt64.toNat_sub_of_le _ _ hle] at hround
          rw [UInt64.le_iff_toNat_le]
          omega
        have hfits : (frame.header.sequence - ring.capacity).toNat + (1 : UInt64).toNat < 2 ^ 64 := by
          have hpos := ring.capacity_pos
          have hseq := frame.header.sequence.toNat_lt
          rw [UInt64.toNat_sub_of_le _ _ hcap, UInt64.toNat_one]
          omega
        rw [if_pos hround, (Guarded.sub _ _).returns hcap, Option.bind_some,
          (Guarded.add _ _).returns hfits, Option.bind_some, if_pos ⟨hgt, hround⟩]
      · rw [if_neg hround, if_neg fun h => hround h.2]
    · rw [if_neg hgt, if_neg fun h => hgt h.1]

theorem stepChecked_eq (ring : BoundedRingBuffer) (op : RingOp) :
    ring.stepChecked op = some (ring.step op) := by
  cases op with
  | push frame => exact pushChecked_eq ring frame
  | clear => rfl

/-- The retained part of a range that `get_range` looks through is no longer than the capacity. -/
theorem Pushed.width_le (h : ring.Pushed history) (hle : a ≤ b) (within : ring.minSequence.getD 0 ≤ a)
    (upTo : b ≤ ring.maxSequence.getD 0) : b.toNat + 1 - a.toNat ≤ ring.capacity.toNat := by
  have hpos := ring.capacity_pos
  rw [UInt64.le_iff_toNat_le] at hle within upTo
  cases hmin : ring.minSequence with
  | none =>
    -- a ring that has seen no push holds its interval to be `0..=0`
    have hmax : ring.maxSequence = none := by rw [h.max, h.min_none.mp hmin]; rfl
    rw [hmax, Option.getD_none, UInt64.toNat_zero] at upTo
    omega
  | some minS =>
    cases hmax : ring.maxSequence with
    | none =>
      rw [hmax, Option.getD_none, UInt64.toNat_zero] at upTo
      omega
    | some maxS =>
      have hspan := h.span minS maxS hmin hmax
      rw [hmin, Option.getD_some] at within
      rw [hmax, Option.getD_some] at upTo
      omega

/-- What `get_range` answers, with the room it has allocated for it. -/
theorem Pushed.getRangeChecked_eq (h : ring.Pushed history) (hle : a ≤ b) :
    ∃ allocated ≤ ring.capacity.toNat,
      ring.getRangeChecked a b = some (allocated, ring.getRange a b) := by
  unfold getRangeChecked getRange
  dsimp only
  split
  · exact ⟨0, Nat.zero_le _, rfl⟩
  · rename_i within
    split
    · rename_i above
      have hfits : (ring.maxSequence.getD 0).toNat + (1 : UInt64).toNat < 2 ^ 64 := by
        have hb := b.toNat_lt
        have habove := UInt64.lt_iff_toNat_lt.mp above
        rw [UInt64.toNat_one]
        omega
      rw [(Guarded.add _ _).returns hfits]
      exact ⟨0, Nat.zero_le _, rfl⟩
    · rename_i upTo
      have hwidth := h.width_le hle (UInt64.not_lt.mp within) (UInt64.not_lt.mp upTo)
      have hcap := ring.capacity.toNat_lt
      have hab := UInt64.le_iff_toNat_le.mp hle
      have hsub := UInt64.toNat_sub_of_le _ _ hle
      have hfits : (b - a).toNat + (1 : UInt64).toNat < 2 ^ 64 := by
        rw [hsub, UInt64.toNat_one]
        omega
      rw [(Guarded.sub _ _).returns hle, Option.bind_eq_bind, Option.bind_some,
        (Guarded.add _ _).returns hfits, Option.bind_some]
      refine ⟨_, ?_, rfl⟩
      rw [UInt64.toNat_add, hsub, UInt64.toNat_one, Nat.mod_eq_of_lt (by omega)]
      omega

/-- A reply to `from..=to` is computed in range and is bounded, exact and up to date with the
frames pushed, newest first. -/
structure SoundReply (ring : BoundedRingBuffer) (history : List OwnedFrame) (fromSeq toSeq : UInt64) : Prop where
  checked : ∃ allocated ≤ ring.capacity.toNat,
    ring.getRangeChecked fromSeq toSeq = some (allocated, ring.getRange fromSeq toSeq)
  bounded : ∀ frames, ring.getRange fromSeq toSeq = .ok frames → frames.length ≤ ring.capacity.toNat
  exact : ∀ frames, ring.getRange fromSeq toSeq = .ok frames →
    (frames.map fun f => f.seq.toNat) = List.range' fromSeq.toNat (toSeq.toNat + 1 - fromSeq.toNat)
  latest : ∀ frames, ring.getRange fromSeq toSeq = .ok frames →
    ∀ f ∈ frames, history.find? (fun g => g.seq = f.seq) = some f

theorem Pushed.soundReply (h : ring.Pushed history) (hle : a ≤ b) : ring.SoundReply history a b := by
  refine ⟨h.getRangeChecked_eq hle, ?_, fun frames hframes => (getRange_ok hframes).range, ?_⟩
  · intro frames hframes
    have hlength := congrArg List.length (getRange_ok hframes).range
    rw [List.length_map, List.length_range'] at hlength
    have hcase := ring.getRange_cases a b
    rw [hframes] at hcase
    cases hcase with
    | retained within upTo range =>
      rw [hlength]
      exact h.width_le hle within upTo
  · intro frames hframes f hf
    exact h.latest ((getRange_ok hframes).found f hf)

end BoundedRingBuffer

open BoundedRingBuffer

/-- **Ring replies**: whatever was pushed and cleared, all arithmetic stays in range, and a reply is
sound. -/
theorem ring_replies_sound (capacity : UInt64) (pos : 0 < capacity) (ops : List RingOp) :
    ops.foldlM stepChecked (new capacity pos) = some (Runs.run BoundedRingBuffer.step (new capacity pos) ops) ∧
      ∀ fromSeq toSeq, fromSeq ≤ toSeq →
        (Runs.run BoundedRingBuffer.step (new capacity pos) ops).SoundReply (ops.foldl sinceClear []) fromSeq toSeq := by
  constructor
  · generalize new capacity pos = ring
    induction ops generalizing ring with
    | nil => rfl
    | cons op ops ih =>
      rw [List.foldlM_cons, stepChecked_eq, Option.bind_eq_bind, Option.bind_some]
      exact ih (ring.step op)
  · intro fromSeq toSeq hle
    exact ((Pushed.fresh capacity pos).run ops).soundReply hle

/-- Frames 3, 5, 4 and 5 again, pushed into two slots after a clear. -/
def reorderedPushes : List RingOp :=
  [.push (.newData 1 9 0 7 []), .clear, .push (.newData 1 3 0 7 []), .push (.newData 1 5 0 7 []),
    .push (.newData 1 4 0 7 []), .push (.newData 1 5 0 7 [1])]

theorem ring_replies_sound_reordered :
    reorderedPushes.foldlM stepChecked (new 2 (by decide)) =
        some (Runs.run BoundedRingBuffer.step (new 2 (by decide)) reorderedPushes) ∧
      (Runs.run BoundedRingBuffer.step (new 2 (by decide)) reorderedPushes).SoundReply
        (reorderedPushes.foldl sinceClear []) 4 5 := by
  have sound := ring_replies_sound 2 (by decide) reorderedPushes
  exact ⟨sound.1, sound.2 4 5 (by decide)⟩

/-- The reply carries the second frame 5. -/
example : (Runs.run BoundedRingBuffer.step (new 2 (by decide)) reorderedPushes).getRange 4 5 =
    .ok [.newData 1 4 0 7 [], .newData 1 5 0 7 [1]] := by
  rfl

end Rtdp
