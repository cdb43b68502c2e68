import Rtdp.Core.Recovery.Responses
import Rtdp.Transport.Unrecovered

/-!
# The worker and its only request

A worker with one outstanding request notes the responses to it. The one that
completes the range has everything forwarded that was buffered or requested,
each sequence once and in order, and moves neither the tracker nor the duplicate
filter. With nothing outstanding, only DATA does more than change the engine's
state.
-/

namespace Rtdp

namespace RecoveryEngine

end RecoveryEngine

namespace Subscriber

variable {sub : Subscriber} {id : UInt64} {frame : OwnedFrame} {req : ActiveReplayRequest}
  {frames : List OwnedFrame}

/-- What responses leave alone. -/
structure Steady (sub after : Subscriber) : Prop where
  mode : after.receiver.mode = sub.receiver.mode
  tracker : after.receiver.tracker = sub.receiver.tracker
  dedup : after.receiver.dedup = sub.receiver.dedup
  config : after.receiver.recovery.config = sub.receiver.recovery.config
  nextRequestId : after.receiver.recovery.nextRequestId = sub.receiver.recovery.nextRequestId
  requested : after.requested = sub.requested

theorem Steady.refl (sub : Subscriber) : Steady sub sub := ⟨rfl, rfl, rfl, rfl, rfl, rfl⟩

theorem Steady.trans {next after : Subscriber} (h : Steady sub next) (h' : Steady next after) : Steady sub after :=
  ⟨h'.mode.trans h.mode, h'.tracker.trans h.tracker, h'.dedup.trans h.dedup, h'.config.trans h.config,
    h'.nextRequestId.trans h.nextRequestId, h'.requested.trans h.requested⟩

/-- With nothing outstanding, only DATA does more than change the engine's state. -/
theorem idle_step (idle : sub.receiver.recovery.outstandingRequests = ∅) {e : Event} (other : e.dataFrame = none) :
    ∃ state, sub.step e =
      { sub with receiver := { sub.receiver with recovery := { sub.receiver.recovery with state } } } := by
  have none : ∀ id : UInt64, sub.receiver.recovery.outstandingRequests[id]? = none := by
    intro id
    rw [idle]
    rfl
  cases e with
  | data now f => cases other
  | timeouts now order =>
    refine ⟨sub.receiver.recovery.state, ?_⟩
    rw [step, handleTimeouts, RecoveryEngine.checkTimeouts_idle none]
    simp only [List.append_nil]
  | replayResponse id g =>
    refine ⟨sub.receiver.recovery.state, ?_⟩
    rw [step, handleReplayResponse, RecoveryEngine.handleReplayResponse_unknown (none id)]
  | replayUnavailable u =>
    refine ⟨.recoveryFailed, ?_⟩
    have hnone : sub.receiver.recovery.outstandingRequests.erase u.requestId =
        sub.receiver.recovery.outstandingRequests := by
      rw [idle]
      exact Std.ExtTreeMap.erase_empty
    simp only [step, handleReplayUnavailable, RecoveryEngine.handleReplayUnavailable, hnone]

end Subscriber

end Rtdp
