import Rtdp.Core.Delivery.Modes
import Rtdp.Lib.Records

/-!
# A publisher restart in `Latest` mode

The mode delivers what is above its own high-water mark. The tracker notices a
change of publisher, but the mark stays, where `AtLeastOnce` and
`ReliableOrdered` set it to the first sequence of the new publisher: its frames
are measured against the sequences of the old one.
-/

namespace Rtdp

open Records

/-- Frames by sequence. -/
abbrev frameRank (frame : OwnedFrame) : Nat := frame.seq.toNat

namespace StreamReceiver

variable {rx : StreamReceiver}

theorem processDataFrame_latest (mode : rx.mode = .latest) (now : Instant) (frame : OwnedFrame) :
    rx.processDataFrame now frame =
      if rx.highestDeliveredSequence < frame.seq then
        (.ok ([frame], none),
          { rx with
            tracker := (rx.tracker.observe frame.header.publisherId frame.seq).2
            highestDeliveredSequence := frame.seq })
      else
        (.ok ([], none),
          { rx with tracker := (rx.tracker.observe frame.header.publisherId frame.seq).2 }) := by
  obtain ⟨_, _, _, _, _, _⟩ := rx
  subst mode
  rfl

/-- **Step**: the mode stays, and a call delivers and moves the mark as the pass does. -/
theorem latest_step (mode : rx.mode = .latest) (now : Instant) (frame : OwnedFrame) :
    (rx.processDataFrame now frame).2.mode = .latest ∧
      (rx.processDataFrame now frame).1.frames =
        keepAbove frameRank rx.highestDeliveredSequence.toNat [frame] ∧
      (rx.processDataFrame now frame).2.highestDeliveredSequence.toNat =
        raised frameRank rx.highestDeliveredSequence.toNat [frame] := by
  rw [processDataFrame_latest mode]
  simp only [keepAbove, raised, List.foldl_cons, List.foldl_nil, frameRank, ← UInt64.lt_iff_toNat_lt]
  split_ifs
  · exact ⟨mode, rfl, rfl⟩
  · exact ⟨mode, rfl, rfl⟩

end StreamReceiver

namespace Feed

variable {σ : Feed}

/-- **Run**: the frames delivered are those the pass keeps. -/
theorem latest_delivered (mode : σ.receiver.mode = .latest) (arrivals : List Arrival) :
    (Runs.run call σ arrivals).delivered =
      σ.delivered ++
        keepAbove frameRank σ.receiver.highestDeliveredSequence.toNat (arrivals.map Arrival.frame) := by
  induction arrivals generalizing σ with
  | nil => simp [keepAbove]
  | cons a as ih =>
    obtain ⟨hmode, hframes, hmark⟩ := StreamReceiver.latest_step mode a.now a.frame
    rw [Runs.run_cons, ih (by rw [call_receiver]; exact hmode), call_delivered, call_receiver,
      hframes, hmark, List.append_assoc, ← keepAbove_append]
    rfl

end Feed

/-- What a fresh receiver delivers of `A` and then `B` is what the pass keeps of each, the second
from where the first left the mark. -/
theorem latest_restart_delivered (cfg : RecoveryConfig) (streamId A B : UInt64) (as bs : List Arrival)
    (restart : A ≠ B) (fromA : ∀ a ∈ as, a.frame.header.publisherId = A)
    (fromB : ∀ b ∈ bs, b.frame.header.publisherId = B) :
    ((StreamReceiver.new streamId .latest cfg).feed (as ++ bs)).delivered.filter
        (·.header.publisherId = B) =
      keepAbove frameRank (raised frameRank 0 (as.map Arrival.frame)) (bs.map Arrival.frame) := by
  have hrun := Feed.latest_delivered (σ := Feed.of (StreamReceiver.new streamId .latest cfg)) rfl (as ++ bs)
  have hdelivered : ((StreamReceiver.new streamId .latest cfg).feed (as ++ bs)).delivered =
      keepAbove frameRank 0 (as.map Arrival.frame) ++
        keepAbove frameRank (raised frameRank 0 (as.map Arrival.frame)) (bs.map Arrival.frame) := by
    rw [← keepAbove_append, ← List.map_append]
    exact hrun
  have ofA : ∀ f ∈ keepAbove frameRank 0 (as.map Arrival.frame), f.header.publisherId = A := by
    intro f hf
    obtain ⟨a, ha, rfl⟩ := List.mem_map.mp (keepAbove_sublist.subset hf)
    exact fromA a ha
  have ofB : ∀ f ∈ keepAbove frameRank (raised frameRank 0 (as.map Arrival.frame))
      (bs.map Arrival.frame), f.header.publisherId = B := by
    intro f hf
    obtain ⟨b, hb, rfl⟩ := List.mem_map.mp (keepAbove_sublist.subset hf)
    exact fromB b hb
  rw [hdelivered, List.filter_append, List.filter_eq_nil_iff.mpr, List.filter_eq_self.mpr,
    List.nil_append]
  · intro f hf
    simpa using ofB f hf
  · intro f hf
    simpa [ofA f hf] using restart

/-- **The frames delivered of a new publisher** are its records exactly if it has sent nothing or
its first frame is above every sequence of the old publisher. -/
theorem latest_restart_records_iff (cfg : RecoveryConfig) (streamId A B : UInt64) (as bs : List Arrival)
    (restart : A ≠ B) (fromA : ∀ a ∈ as, a.frame.header.publisherId = A)
    (fromB : ∀ b ∈ bs, b.frame.header.publisherId = B)
    (numbered : ∀ a ∈ as ++ bs, 1 ≤ a.frame.seq) :
    ((StreamReceiver.new streamId .latest cfg).feed (as ++ bs)).delivered.filter
        (·.header.publisherId = B) = records frameRank (bs.map Arrival.frame) ↔
      ∀ b ∈ bs.head?, ∀ a ∈ as, a.frame.seq < b.frame.seq := by
  rw [latest_restart_delivered cfg streamId A B as bs restart fromA fromB, keepAbove_eq_records_iff]
  cases bs with
  | nil => simp
  | cons b bs =>
    have hb : 0 < b.frame.seq.toNat := UInt64.le_iff_toNat_le.mp (numbered b (by simp))
    simp only [List.map_cons, List.head?_cons, Option.mem_def, Option.some.injEq, forall_eq', raised_lt,
      List.forall_mem_map, UInt64.lt_iff_toNat_lt, hb, true_and]

theorem latest_restart_records_iff_above :
    ((StreamReceiver.new 1 .latest RecoveryConfig.default).feed
        (arrivalsOf 7 [1, 2] ++ arrivalsOf 9 [3, 5, 4])).delivered.filter (·.header.publisherId = 9) =
      records frameRank ((arrivalsOf 9 [3, 5, 4]).map Arrival.frame) :=
  (latest_restart_records_iff RecoveryConfig.default 1 7 9 (arrivalsOf 7 [1, 2]) (arrivalsOf 9 [3, 5, 4])
    (by decide) (by decide) (by decide) (by decide)).mpr (by decide)

/-- The old publisher got to 5; the new one starts at 1 and is not heard. -/
theorem latest_restart_silences :
    ((StreamReceiver.new 1 .latest RecoveryConfig.default).feed
        (arrivalsOf 7 [5] ++ arrivalsOf 9 [1])).delivered.filter (·.header.publisherId = 9) ≠
      records frameRank ((arrivalsOf 9 [1]).map Arrival.frame) := by
  decide +kernel

end Rtdp
