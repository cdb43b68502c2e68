import Rtdp.Core.Buffers.Ring
import Rtdp.Lib.DirectMapped
import Rtdp.Lib.Runs

/-!
# Runs of a ring

What a ring holds after any pushes and clears: its slots are a direct-mapped
table of the frames pushed since the last clear, `max_sequence` is the newest of
them, and the retained interval never spans more than the capacity.
-/

namespace Rtdp

/-- The operations that write a ring. -/
inductive RingOp where
  | push (frame : OwnedFrame)
  | clear

namespace BoundedRingBuffer

def step (self : BoundedRingBuffer) : RingOp → BoundedRingBuffer
  | .push frame => self.push frame
  | .clear => self.clear

/-- The frames pushed since the last clear, newest first. -/
def sinceClear : List OwnedFrame → RingOp → List OwnedFrame
  | history, .push frame => frame :: history
  | _, .clear => []

/-- The ring holds what the frames of the history, newest first, have left in it. -/
structure Pushed (ring : BoundedRingBuffer) (history : List OwnedFrame) : Prop where
  slots : DirectMapped.Shows (fun f => ring.index f.seq) ring.buffer history
  min_none : ring.minSequence = none ↔ history = []
  max : ring.maxSequence = history.head?.map OwnedFrame.seq
  span : ∀ minS maxS, ring.minSequence = some minS → ring.maxSequence = some maxS →
    maxS.toNat < minS.toNat + ring.capacity.toNat

namespace Pushed

variable {ring : BoundedRingBuffer} {history : List OwnedFrame} {f : OwnedFrame} {s : UInt64}

theorem fresh (capacity : UInt64) (pos : 0 < capacity) : Pushed (new capacity pos) [] where
  slots := DirectMapped.Shows.empty _
  min_none := by simp [new]
  max := rfl
  span := fun minS maxS hmin => by cases hmin

theorem push (h : ring.Pushed history) (f : OwnedFrame) : (ring.push f).Pushed (f :: history) := by
  refine ⟨?_, ?_, push_max, fun minS maxS hmin hmax => ?_⟩
  · have hslots := h.slots.write f
    rw [push_buffer]
    simpa only [index, push_capacity] using hslots
  · refine iff_of_false (fun hnone => ?_) (List.cons_ne_nil _ _)
    cases hmin : ring.minSequence with
    | none => simp [push_min_of_none hmin] at hnone
    | some minS =>
      obtain ⟨oldest, holdest, -⟩ := push_min_of_some (f := f) hmin
      simp [holdest] at hnone
  · have hpos := ring.capacity_pos
    rw [push_max] at hmax
    cases hmax
    rw [push_capacity]
    cases hold : ring.minSequence with
    | none =>
      rw [push_min_of_none hold] at hmin
      cases hmin
      omega
    | some minS' =>
      obtain ⟨oldest, holdest, hnat⟩ := push_min_of_some (f := f) hold
      rw [holdest] at hmin
      cases hmin
      split at hnat <;> omega

theorem clear (ring : BoundedRingBuffer) : ring.clear.Pushed [] where
  slots := DirectMapped.Shows.empty _
  min_none := by simp [BoundedRingBuffer.clear]
  max := rfl
  span := fun minS maxS hmin => by cases hmin

theorem step (h : ring.Pushed history) (op : RingOp) : (ring.step op).Pushed (sinceClear history op) := by
  cases op with
  | push f => exact h.push f
  | clear => exact Pushed.clear ring

theorem run (h : ring.Pushed history) (ops : List RingOp) :
    (Runs.run BoundedRingBuffer.step ring ops).Pushed (ops.foldl sinceClear history) := by
  induction ops generalizing ring history with
  | nil => exact h
  | cons op ops ih => exact ih (h.step op)

/-- What is found is the latest frame of its slot, and of its sequence. -/
theorem get_iff (h : ring.Pushed history) : ring.get s = some f ↔
    ring.Covers s ∧ f.seq = s ∧ history.find? (fun g => ring.index g.seq = ring.index s) = some f := by
  rw [BoundedRingBuffer.get_iff, h.slots.getElem? (ring.index_lt s)]

theorem latest (h : ring.Pushed history) (found : ring.get s = some f) :
    history.find? (fun g => g.seq = s) = some f := by
  obtain ⟨-, hseq, hfind⟩ := h.get_iff.mp found
  refine DirectMapped.find_of_imp ?_ hfind hseq
  rintro g rfl
  rfl

end Pushed

/-- A new ring after the frames, in the order of their pushes. -/
def pushAll (capacity : UInt64) (pos : 0 < capacity) (frames : List OwnedFrame) : BoundedRingBuffer :=
  Runs.run push (new capacity pos) frames

section PushAll

variable {capacity : UInt64} {pos : 0 < capacity} {frames : List OwnedFrame} {f : OwnedFrame}

theorem pushAll_concat : pushAll capacity pos (frames ++ [f]) = (pushAll capacity pos frames).push f :=
  Runs.run_append ..

theorem pushAll_capacity : (pushAll capacity pos frames).capacity = capacity := by
  induction frames using List.reverseRecOn with
  | nil => rfl
  | append_singleton frames f ih => rw [pushAll_concat, push_capacity, ih]

theorem pushAll_pushed : (pushAll capacity pos frames).Pushed frames.reverse := by
  induction frames using List.reverseRecOn with
  | nil => exact Pushed.fresh capacity pos
  | append_singleton frames f ih =>
    rw [pushAll_concat, List.reverse_concat]
    exact ih.push f

end PushAll

end BoundedRingBuffer

end Rtdp
