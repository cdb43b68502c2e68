import Rtdp.Core.Delivery.InTurn
import Rtdp.Transport.System

/-!
# The modes without recovery

In `BestEffort` and `Latest` mode the worker creates no request, so that no
replay traffic means anything to it: whatever packets arrive, it forwards DATA
frames as they come, in `Latest` mode those that are newer than all before.
-/

namespace Rtdp
open Records

def Event.dataFrame : Event → Option OwnedFrame
  | .data _ frame => some frame
  | .timeouts _ _ | .replayResponse _ _ | .replayUnavailable _ => none

/-- The DATA frame that a turn brings. -/
def Turn.dataFrame (crc32c : List UInt8 → UInt32) (config : UdpSubscriberConfig) : Turn → Option OwnedFrame
  | .timeouts _ _ => none
  | .packet now bytes => (eventOf crc32c config.codec config.streamId now bytes).bind Event.dataFrame

/-- A worker that has received these DATA frames and waits for nothing. -/
structure Unrecovered (m : DeliveryMode) (frames : List OwnedFrame) (sub : Subscriber) : Prop where
  mode : sub.receiver.mode = m
  outstanding : ∀ id : UInt64, sub.receiver.recovery.outstandingRequests[id]? = none
  mark : m = .latest → sub.receiver.highestDeliveredSequence.toNat = raised frameRank 0 frames
  all : m = .bestEffort → sub.forwarded = frames
  newest : m = .latest → sub.forwarded = keepAbove frameRank 0 frames
  requested : sub.requested = []

namespace Unrecovered

variable {m : DeliveryMode} {frames : List OwnedFrame} {sub : Subscriber}

theorem fresh (streamId : UInt64) (m : DeliveryMode) (cfg : RecoveryConfig) :
    Unrecovered m [] (Subscriber.new streamId m cfg) := by
  exact ⟨rfl, fun id => by simp [Subscriber.new], fun _ => rfl, fun _ => rfl, fun _ => rfl, rfl⟩

/-- A call delivers what the mode passes of its frame, and moves the mark. -/
theorem passed {rx : StreamReceiver} (simple : rx.mode = .bestEffort ∨ rx.mode = .latest) (now : Instant)
    (frame : OwnedFrame) :
    ∃ delivered after, rx.processDataFrame now frame = (.ok (delivered, none), after) ∧
      after.mode = rx.mode ∧ after.recovery = rx.recovery ∧
      (rx.mode = .bestEffort → delivered = [frame]) ∧
      (rx.mode = .latest → delivered = keepAbove frameRank rx.highestDeliveredSequence.toNat [frame] ∧
        after.highestDeliveredSequence.toNat = raised frameRank rx.highestDeliveredSequence.toNat [frame]) := by
  rcases simple with hmode | hmode
  · have notLatest : rx.mode ≠ .latest := by
      rw [hmode]
      decide
    exact ⟨_, _, StreamReceiver.processDataFrame_bestEffort hmode now frame, rfl, rfl, fun _ => rfl,
      fun h => absurd h notLatest⟩
  · obtain ⟨-, hframes, hmark⟩ := StreamReceiver.latest_step hmode now frame
    have notBest : rx.mode ≠ .bestEffort := by
      rw [hmode]
      decide
    rw [StreamReceiver.processDataFrame_latest hmode] at hframes hmark ⊢
    by_cases newer : rx.highestDeliveredSequence < frame.seq
    · rw [if_pos newer] at hframes hmark ⊢
      exact ⟨_, _, rfl, rfl, rfl, fun h => absurd h notBest, fun _ => ⟨hframes, hmark⟩⟩
    · rw [if_neg newer] at hframes hmark ⊢
      exact ⟨_, _, rfl, rfl, rfl, fun h => absurd h notBest, fun _ => ⟨hframes, hmark⟩⟩

theorem data (h : Unrecovered m frames sub) (simple : m = .bestEffort ∨ m = .latest) (now : Instant)
    (frame : OwnedFrame) : Unrecovered m (frames ++ [frame]) (sub.handleData now frame) := by
  obtain ⟨rfl, outstanding, mark, all, newest, requested⟩ := h
  obtain ⟨delivered, after, hcall, hmode, hrecovery, best, latest⟩ := passed simple now frame
  rw [Subscriber.handleData, hcall]
  refine ⟨hmode, ?_, fun hlatest => ?_, fun hbest => ?_, fun hlatest => ?_, ?_⟩
  · rw [hrecovery]
    exact outstanding
  · rw [(latest hlatest).2, mark hlatest, raised, raised, raised, List.foldl_append]
  · show sub.forwarded ++ delivered = _
    rw [all hbest, best hbest]
  · show sub.forwarded ++ delivered = _
    rw [newest hlatest, (latest hlatest).1, mark hlatest]
    exact keepAbove_append.symm
  · show sub.requested ++ Option.toList none = []
    rw [requested]
    rfl

/-- **Step**: nothing but DATA matters to the worker. -/
theorem step (h : Unrecovered m frames sub) (simple : m = .bestEffort ∨ m = .latest) (e : Event) :
    Unrecovered m (frames ++ e.dataFrame.toList) (sub.step e) := by
  cases e with
  | data now f => exact h.data simple now f
  | timeouts now order =>
    rw [Event.dataFrame, Option.toList_none, List.append_nil, Subscriber.step, Subscriber.handleTimeouts,
      RecoveryEngine.checkTimeouts_idle h.outstanding]
    exact ⟨h.mode, h.outstanding, h.mark, h.all, h.newest, (List.append_nil _).trans h.requested⟩
  | replayResponse id g =>
    rw [Event.dataFrame, Option.toList_none, List.append_nil, Subscriber.step, Subscriber.handleReplayResponse,
      RecoveryEngine.handleReplayResponse_unknown (h.outstanding id)]
    exact h
  | replayUnavailable u =>
    rw [Event.dataFrame, Option.toList_none, List.append_nil]
    refine ⟨h.mode, fun id => ?_, h.mark, h.all, h.newest, h.requested⟩
    simp only [Subscriber.step, Subscriber.handleReplayUnavailable, RecoveryEngine.handleReplayUnavailable,
      OrderedMap.get_erase]
    split
    · rfl
    · exact h.outstanding id

variable {crc32c : List UInt8 → UInt32} {config : UdpSubscriberConfig}

theorem work (h : Unrecovered m frames sub) (simple : m = .bestEffort ∨ m = .latest) (t : Turn) :
    Unrecovered m (frames ++ (t.dataFrame crc32c config).toList) (sub.work crc32c config t) := by
  cases t with
  | timeouts now order => exact h.step simple (.timeouts now order)
  | packet now bytes =>
    rw [Turn.dataFrame, Subscriber.work, Subscriber.turn]
    cases eventOf crc32c config.codec config.streamId now bytes with
    | none =>
      rw [Option.bind_none, Option.toList_none, List.append_nil]
      exact h
    | some e => exact h.step simple e

/-- **Run** -/
theorem run (h : Unrecovered m frames sub) (simple : m = .bestEffort ∨ m = .latest) (turns : List Turn) :
    Unrecovered m (frames ++ turns.filterMap (Turn.dataFrame crc32c config))
      (Runs.run (Subscriber.work crc32c config) sub turns) := by
  induction turns generalizing frames sub with
  | nil =>
    rw [List.filterMap_nil, List.append_nil]
    exact h
  | cons t turns ih =>
    have hturn : Unrecovered m (frames ++ (t.dataFrame crc32c config).toList) (sub.work crc32c config t) :=
      h.work simple t
    have hrun := ih hturn
    rw [List.append_assoc] at hrun
    rw [List.filterMap_cons]
    cases hframe : t.dataFrame crc32c config with
    | none =>
      rw [hframe] at hrun
      exact hrun
    | some f =>
      rw [hframe] at hrun
      exact hrun

end Unrecovered

/-- **Modes without recovery**: whatever packets arrive and whenever the timeouts are checked, a
`BestEffort` worker forwards every DATA frame of its stream and a `Latest` worker those above all it has
forwarded. Neither ever sends a request. -/
theorem subscriber_unrecovered (crc32c : List UInt8 → UInt32) (config : UdpSubscriberConfig)
    (simple : config.mode = .bestEffort ∨ config.mode = .latest) (turns : List Turn) :
    let sub := Runs.run (Subscriber.work crc32c config) (Subscriber.spawn config) turns
    let frames := turns.filterMap (Turn.dataFrame crc32c config)
    (config.mode = .bestEffort → sub.forwarded = frames) ∧
      (config.mode = .latest → sub.forwarded = keepAbove frameRank 0 frames) ∧ sub.requested = [] := by
  intro sub frames
  have h : Unrecovered config.mode ([] ++ frames) sub := (Unrecovered.fresh _ _ _).run simple turns
  rw [List.nil_append] at h
  exact ⟨h.all, h.newest, h.requested⟩

/-- The second frame overtakes the first. -/
def overtaken : List Turn :=
  [.packet 0 ((OwnedFrame.newData 1 2 0 100 [8]).sealed crc32c),
    .packet 0 ((OwnedFrame.newData 1 1 0 100 [7]).sealed crc32c), .timeouts 1 []]

theorem subscriber_unrecovered_overtaken :
    let config := { UdpSubscriberConfig.default with mode := .latest }
    let sub := Runs.run (Subscriber.work crc32c config) (Subscriber.spawn config) overtaken
    sub.forwarded.map OwnedFrame.seq = [2] ∧ sub.requested = [] := by
  intro config sub
  obtain ⟨-, newest, quiet⟩ := subscriber_unrecovered crc32c config (Or.inr rfl) overtaken
  refine ⟨?_, quiet⟩
  rw [newest rfl]
  decide +kernel

end Rtdp
