import Rtdp.Core.Delivery.Modes

/-!
# Lost frames in `AtLeastOnce` mode

The mode delivers whatever arrives, except that a gap asks for a replay first
and returns the error of a refused request, the frame with it. `ReliableOrdered`
buffers the frame before it asks. A frame is therefore delivered by its own call
exactly when it opens no gap whose request is refused.
-/

namespace Rtdp

namespace StreamReceiver

variable {rx : StreamReceiver} {frame : OwnedFrame}

/-- The frame opens a gap, and the request for it is refused. -/
def GapRefused (rx : StreamReceiver) (frame : OwnedFrame) : Prop :=
  frame.seq ≠ rx.tracker.expectedFor frame.header.publisherId ∧
    (rx.tracker.activePublisherId = some frame.header.publisherId →
      rx.tracker.expectedFor frame.header.publisherId < frame.seq) ∧
    rx.recovery.Refuses (rx.tracker.expectedFor frame.header.publisherId) (frame.seq - 1)

instance : Decidable (rx.GapRefused frame) := inferInstanceAs (Decidable (_ ∧ _))

theorem processDataFrame_atLeastOnce (mode : rx.mode = .atLeastOnce) (now : Instant) (frame : OwnedFrame) :
    rx.processDataFrame now frame =
      { rx with tracker := (rx.tracker.observe frame.header.publisherId frame.seq).2 }.processAtLeastOnce
        now frame frame.seq (rx.tracker.observe frame.header.publisherId frame.seq).1 := by
  obtain ⟨_, _, _, _, _, _⟩ := rx
  subst mode
  rfl

/-- What the mode leaves alone, whatever the status. -/
structure AtLeastOnceAfter (rx after : StreamReceiver) : Prop where
  mode : after.mode = rx.mode
  tracker : after.tracker = rx.tracker
  dedup : after.dedup = rx.dedup
  buffered : after.recovery.bufferedOutOfOrder = rx.recovery.bufferedOutOfOrder

theorem processAtLeastOnce_after (rx : StreamReceiver) (now : Instant) (frame : OwnedFrame)
    (s : UInt64) (status : SequenceStatus) :
    AtLeastOnceAfter rx (rx.processAtLeastOnce now frame s status).2 := by
  unfold processAtLeastOnce
  cases status with
  | inOrder sequence => exact ⟨rfl, rfl, rfl, rfl⟩
  | gap expected received fromSequence toSequence =>
    have hbuffered : (rx.recovery.createReplayRequest now fromSequence toSequence).2.bufferedOutOfOrder = _ :=
      RecoveryEngine.createReplayRequest_buffered
    dsimp only
    split <;> rename_i heq <;> rw [heq] at hbuffered <;> exact ⟨rfl, rfl, rfl, hbuffered⟩
  | duplicateOrOld sequence expected => exact ⟨rfl, rfl, rfl, rfl⟩
  | publisherReset oldPublisher newPublisher initialSequence => exact ⟨rfl, rfl, rfl, rfl⟩

/-- **Step**: a call delivers its frame unless the frame opens a refused gap. -/
theorem atLeastOnce_delivers (mode : rx.mode = .atLeastOnce) (now : Instant) (frame : OwnedFrame) :
    frame ∈ (rx.processDataFrame now frame).1.frames ↔ ¬ rx.GapRefused frame := by
  rw [processDataFrame_atLeastOnce mode]
  by_cases hexp : frame.seq = rx.tracker.expectedFor frame.header.publisherId
  · have hnot : ¬ rx.GapRefused frame := fun h => h.1 hexp
    by_cases live : rx.tracker.activePublisherId = none ∨
        rx.tracker.activePublisherId = some frame.header.publisherId
    · rw [StreamSequenceTracker.observe_status_same live hexp]
      simp [processAtLeastOnce, Delivery.frames, hnot]
    · obtain ⟨started, other⟩ := not_or.mp live
      rw [(StreamSequenceTracker.observe_status_reset started other hexp).2]
      simp [processAtLeastOnce, Delivery.frames, hnot]
  rcases StreamSequenceTracker.observe_status_other hexp with ⟨status, ahead⟩ | ⟨status, same, behind⟩
  · rw [status]
    unfold processAtLeastOnce
    dsimp only
    by_cases refused : rx.recovery.Refuses (rx.tracker.expectedFor frame.header.publisherId) (frame.seq - 1)
    · obtain ⟨e, he⟩ := RecoveryEngine.createReplayRequest_refused now refused
      have hgap : rx.GapRefused frame := ⟨hexp, ahead, refused⟩
      rw [he]
      simp [Delivery.frames, hgap]
    · rw [RecoveryEngine.createReplayRequest_accepted refused]
      simp [Delivery.frames, GapRefused, refused]
  · have hnot : ¬ rx.GapRefused frame := fun h =>
      UInt64.lt_irrefl _ (UInt64.lt_trans behind (h.2.1 same))
    rw [status]
    simp [processAtLeastOnce, Delivery.frames, hnot]

/-- The expected frame is delivered by itself, and asks for nothing. -/
theorem atLeastOnce_expected (mode : rx.mode = .atLeastOnce) (now : Instant)
    (live : rx.tracker.activePublisherId = none ∨
      rx.tracker.activePublisherId = some frame.header.publisherId)
    (expected : frame.seq = rx.tracker.expectedFor frame.header.publisherId) :
    (rx.processDataFrame now frame).1 = .ok ([frame], none) := by
  rw [processDataFrame_atLeastOnce mode, StreamSequenceTracker.observe_status_same live expected]
  rfl

end StreamReceiver

/-- **Every call delivers its frame** exactly in the runs in which no frame opens a gap whose
request is refused. -/
theorem at_least_once_delivers_each (cfg : RecoveryConfig) (streamId : UInt64) (arrivals : List Arrival) :
    let rx := StreamReceiver.new streamId .atLeastOnce cfg
    List.Forall₂ (fun a outcome => a.frame ∈ Delivery.frames outcome) arrivals (rx.feed arrivals).outcomes ↔
      Runs.Each Feed.call (fun σ a => ¬ σ.receiver.GapRefused a.frame) (Feed.of rx) arrivals := by
  intro rx
  obtain ⟨outs, houts, hall⟩ := Feed.forall₂_outcomes
    (P := fun a outcome => a.frame ∈ Delivery.frames outcome) arrivals (Feed.of rx)
  have hsame : (rx.feed arrivals).outcomes = outs := houts
  rw [hsame, hall]
  apply Runs.each_iff fun σ : Feed => σ.receiver.mode = .atLeastOnce
  · intro σ a mode
    rw [Feed.call_receiver, StreamReceiver.processDataFrame_atLeastOnce mode,
      (StreamReceiver.processAtLeastOnce_after _ a.now a.frame _ _).mode]
    exact mode
  · intro σ a mode
    exact StreamReceiver.atLeastOnce_delivers mode a.now a.frame
  · rfl

/-- A subscriber that joins late at frame 5000: the request for 1..4999 is refused and the frame
is gone. -/
theorem at_least_once_loses_late_joiner :
    ¬ List.Forall₂ (fun a outcome => a.frame ∈ Delivery.frames outcome) (arrivalsOf 9 [5000])
      ((StreamReceiver.new 1 .atLeastOnce RecoveryConfig.default).feed (arrivalsOf 9 [5000])).outcomes := by
  decide +kernel

end Rtdp
