import Rtdp.Core.Sequence.Tracker
import Rtdp.Core.Sequence.Dedup
import Rtdp.Core.Recovery.Engine
import Rtdp.Lib.Runs

/-!
# Delivery modes (`core/src/delivery/modes.rs`)

`processDataFrame` runs one incoming DATA frame through the tracker and, by
delivery mode, the duplicate filter and the recovery engine. It returns the
frames to deliver and the replay request to send, or an error; the receiver is
mutated either way.
-/

namespace Rtdp

inductive DeliveryMode where
  | bestEffort
  | latest
  | atLeastOnce
  | reliableOrdered
  deriving DecidableEq, Repr

structure StreamReceiver where
  streamId : UInt64
  mode : DeliveryMode
  tracker : StreamSequenceTracker
  dedup : DuplicateFilter
  recovery : RecoveryEngine
  highestDeliveredSequence : UInt64

/-- What a call of `process_data_frame` hands back. -/
abbrev Delivery := Result (List OwnedFrame × Option ReplayRequestPayload)

namespace StreamReceiver

def new (streamId : UInt64) (mode : DeliveryMode) (recoveryConfig : RecoveryConfig) : StreamReceiver where
  streamId := streamId
  mode := mode
  tracker := StreamSequenceTracker.new streamId
  dedup := DuplicateFilter.new 10000 (by decide)
  recovery := RecoveryEngine.new recoveryConfig
  highestDeliveredSequence := 0

/-- The body of the loop over the drained frames: note each as delivered and move the tracker. -/
def noteDrained (self : StreamReceiver) (c : OwnedFrame) : StreamReceiver :=
  { self with
    highestDeliveredSequence := c.header.sequence
    tracker := self.tracker.advanceExpected (c.header.sequence + 1) }

/-- `ReliableOrdered`, in order: deliver the frame and the buffered frames right behind it. -/
def deliverInOrder (self : StreamReceiver) (frame : OwnedFrame) (sequence : UInt64) :
    Delivery × StreamReceiver :=
  let (contiguous, recovery) := self.recovery.drainContiguous (sequence + 1)
  let self := { self with highestDeliveredSequence := sequence, recovery }
  (.ok (frame :: contiguous, none), contiguous.foldl noteDrained self)

/-- `ReliableOrdered`, gap: buffer the frame, then request the missing range. -/
def bufferGap (self : StreamReceiver) (now : Instant) (frame : OwnedFrame)
    (fromSequence toSequence : UInt64) : Delivery × StreamReceiver :=
  let recovery := self.recovery.bufferFrame frame
  match recovery.createReplayRequest now fromSequence toSequence with
  | (.error e, recovery) => (.error e, { self with recovery })
  | (.ok replayReq, recovery) => (.ok ([], some replayReq), { self with recovery })

def processAtLeastOnce (self : StreamReceiver) (now : Instant) (frame : OwnedFrame) (seq : UInt64) :
    SequenceStatus → Delivery × StreamReceiver
  | .inOrder sequence =>
    (.ok ([frame], none),
      { self with highestDeliveredSequence := max self.highestDeliveredSequence sequence })
  | .gap _ _ fromSequence toSequence =>
    match self.recovery.createReplayRequest now fromSequence toSequence with
    | (.error e, recovery) => (.error e, { self with recovery })
    | (.ok replayReq, recovery) =>
      (.ok ([frame], some replayReq),
        { self with
          recovery
          highestDeliveredSequence := max self.highestDeliveredSequence seq })
  | .duplicateOrOld _ _ => (.ok ([frame], none), self)
  | .publisherReset _ _ initialSequence =>
    (.ok ([frame], none), { self with highestDeliveredSequence := initialSequence })

def processReliableOrdered (self : StreamReceiver) (now : Instant) (frame : OwnedFrame) :
    SequenceStatus → Delivery × StreamReceiver
  | .inOrder sequence => self.deliverInOrder frame sequence
  | .gap _ _ fromSequence toSequence => self.bufferGap now frame fromSequence toSequence
  | .duplicateOrOld _ _ => (.ok ([], none), self)
  | .publisherReset _ _ initialSequence =>
    (.ok ([frame], none),
      { self with recovery := self.recovery.reset, highestDeliveredSequence := initialSequence })

/-- Process an incoming DATA frame according to the selected delivery mode. -/
def processDataFrame (self : StreamReceiver) (now : Instant) (frame : OwnedFrame) :
    Delivery × StreamReceiver :=
  let pubId := frame.header.publisherId
  let seq := frame.header.sequence
  let (status, tracker) := self.tracker.observe pubId seq
  let self := { self with tracker }
  let key : DuplicateKey := ⟨self.streamId, pubId, seq⟩
  match self.mode with
  | .bestEffort =>
    (.ok ([frame], none),
      { self with highestDeliveredSequence := max self.highestDeliveredSequence seq })
  | .latest =>
    if seq > self.highestDeliveredSequence then
      (.ok ([frame], none), { self with highestDeliveredSequence := seq })
    else (.ok ([], none), self)
  | .atLeastOnce => self.processAtLeastOnce now frame seq status
  | .reliableOrdered =>
    let (duplicate, dedup) := self.dedup.isDuplicateAndRecord key
    let self := { self with dedup }
    if duplicate then (.ok ([], none), self) else self.processReliableOrdered now frame status

end StreamReceiver

@[simp] theorem StreamReceiver.new_recovery (streamId : UInt64) (mode : DeliveryMode)
    (recoveryConfig : RecoveryConfig) :
    (StreamReceiver.new streamId mode recoveryConfig).recovery = RecoveryEngine.new recoveryConfig := rfl

/-- The frames a call delivers: none when it returns an error. -/
def Delivery.frames : Delivery → List OwnedFrame
  | .ok (frames, _) => frames
  | .error _ => []

/-- The replay request a call asks to send. -/
def Delivery.request : Delivery → Option ReplayRequestPayload
  | .ok (_, request) => request
  | .error _ => none

/-! ## Runs of DATA frames -/

/-- One call of `process_data_frame`: the frame, and the time the call reads. -/
structure Arrival where
  now : Instant
  frame : OwnedFrame
  deriving DecidableEq, Repr

/-- Empty DATA frames of a publisher with these sequences, all received at time 0. -/
def arrivalsOf (publisherId : UInt64) (sequences : List UInt64) : List Arrival :=
  sequences.map fun s => ⟨0, OwnedFrame.newData 1 s 0 publisherId []⟩

/-- A receiver and what its calls have returned so far, oldest first. -/
structure Feed where
  receiver : StreamReceiver
  outcomes : List Delivery

namespace Feed

/-- A receiver no call has been made on yet. -/
def of (receiver : StreamReceiver) : Feed := ⟨receiver, []⟩

/-- One call; the run goes on whether it returns `Ok` or `Err`. -/
def call (self : Feed) (arrival : Arrival) : Feed :=
  let (outcome, receiver) := self.receiver.processDataFrame arrival.now arrival.frame
  ⟨receiver, self.outcomes ++ [outcome]⟩

/-- The delivered lists, put together. -/
def delivered (self : Feed) : List OwnedFrame := self.outcomes.flatMap Delivery.frames

/-- The replay requests handed out. -/
def requests (self : Feed) : List ReplayRequestPayload :=
  self.outcomes.flatMap fun outcome => outcome.request.toList

end Feed

/-- Feed the arrivals to the receiver one by one. -/
def StreamReceiver.feed (rx : StreamReceiver) (arrivals : List Arrival) : Feed :=
  Runs.run Feed.call (Feed.of rx) arrivals

theorem StreamReceiver.feed_cons (rx : StreamReceiver) (a : Arrival) (arrivals : List Arrival) :
    rx.feed (a :: arrivals) = Runs.run Feed.call ((Feed.of rx).call a) arrivals := rfl

namespace Feed

variable {σ : Feed} {a : Arrival}

@[simp] theorem call_receiver :
    (σ.call a).receiver = (σ.receiver.processDataFrame a.now a.frame).2 := rfl

@[simp] theorem call_delivered :
    (σ.call a).delivered = σ.delivered ++ (σ.receiver.processDataFrame a.now a.frame).1.frames := by
  simp [call, delivered]

@[simp] theorem call_requests :
    (σ.call a).requests =
      σ.requests ++ (σ.receiver.processDataFrame a.now a.frame).1.request.toList := by
  simp [call, requests]

/-- The outcomes of a run, call by call. -/
theorem forall₂_outcomes {P : Arrival → Delivery → Prop} (arrivals : List Arrival) (σ : Feed) :
    ∃ outs, (Runs.run call σ arrivals).outcomes = σ.outcomes ++ outs ∧
      (List.Forall₂ P arrivals outs ↔
        Runs.Each call (fun σ a => P a (σ.receiver.processDataFrame a.now a.frame).1) σ arrivals) := by
  induction arrivals generalizing σ with
  | nil => exact ⟨[], by simp, by simp [Runs.Each]⟩
  | cons a as ih =>
    obtain ⟨outs, houts, hall⟩ := ih (σ.call a)
    refine ⟨(σ.receiver.processDataFrame a.now a.frame).1 :: outs, ?_, ?_⟩
    · rw [Runs.run_cons, houts]
      simp [call]
    · rw [List.forall₂_cons, hall]
      rfl

end Feed

end Rtdp
