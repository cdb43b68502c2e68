import Rtdp.Core.Delivery.Modes
import Rtdp.Lib.Runs

/-!
# The subscriber worker (`transports/udp/src/subscriber.rs`)

The worker thread owns one `StreamReceiver`. Each turn of its loop checks the
recovery timeouts and then handles at most one packet: a DATA frame goes
through `processDataFrame`, a REPLAY_RESPONSE through `handleReplayResponse`,
a REPLAY_UNAVAILABLE through `handleReplayUnavailable`. Frames are passed to
the application channel with `try_send`; `forwarded` lists them in order.
-/

namespace Rtdp

structure Subscriber where
  receiver : StreamReceiver
  /-- Frames passed to `delivered_tx.try_send`, oldest first. -/
  forwarded : List OwnedFrame
  /-- Requests passed to `send_replay_request`, oldest first. -/
  requested : List ReplayRequestPayload

/-- One thing the worker handles. Packets of other streams are dropped before. -/
inductive Event where
  | timeouts (now : Instant) (order : List UInt64)
  | data (now : Instant) (frame : OwnedFrame)
  | replayResponse (requestId : UInt64) (frame : OwnedFrame)
  | replayUnavailable (unavail : ReplayUnavailablePayload)
  deriving DecidableEq, Repr

/-- A DATA frame is one of publisher `p`; replay traffic may be anything. -/
def Event.OfPublisher (p : UInt64) : Event → Prop
  | .data _ frame => frame.header.publisherId = p
  | _ => True

instance (p : UInt64) : DecidablePred (Event.OfPublisher p)
  | .data _ _ => inferInstanceAs (Decidable (_ = _))
  | .timeouts _ _ => inferInstanceAs (Decidable True)
  | .replayResponse _ _ => inferInstanceAs (Decidable True)
  | .replayUnavailable _ => inferInstanceAs (Decidable True)

/-- Empty DATA frames of a publisher with these sequences, all handled at time 0. -/
def dataEvents (publisherId : UInt64) (sequences : List UInt64) : List Event :=
  (arrivalsOf publisherId sequences).map fun a => .data a.now a.frame

/-- The frame `s` of the publisher, replayed for request `id`. -/
def replayOf (id publisherId s : UInt64) : Event :=
  .replayResponse id (OwnedFrame.newData 1 s 0 publisherId [])

namespace Subscriber

def new (streamId : UInt64) (mode : DeliveryMode) (recoveryConfig : RecoveryConfig) : Subscriber where
  receiver := StreamReceiver.new streamId mode recoveryConfig
  forwarded := []
  requested := []

/-- `if let Ok(retries) = stream_rx.recovery.check_timeouts()`. -/
def handleTimeouts (self : Subscriber) (now : Instant) (order : List UInt64) : Subscriber :=
  match self.receiver.recovery.checkTimeouts now order with
  | (.ok retries, recovery) =>
    { self with
      receiver := { self.receiver with recovery }
      requested := self.requested ++ retries }
  | (.error _, recovery) => { self with receiver := { self.receiver with recovery } }

/-- The `MessageType::Data` arm. -/
def handleData (self : Subscriber) (now : Instant) (frame : OwnedFrame) : Subscriber :=
  match self.receiver.processDataFrame now frame with
  | (.ok (toDeliver, maybeReplay), receiver) =>
    { self with
      receiver
      forwarded := self.forwarded ++ toDeliver
      requested := self.requested ++ maybeReplay.toList }
  | (.error _, receiver) => { self with receiver }

/-- The loop over the drained frames of the `MessageType::ReplayResponse` arm. -/
def forwardDrained (self : Subscriber) (f : OwnedFrame) : Subscriber :=
  { self with
    receiver := { self.receiver with
      highestDeliveredSequence := max self.receiver.highestDeliveredSequence f.header.sequence }
    forwarded := self.forwarded ++ [f] }

/-- The `MessageType::ReplayResponse` arm. -/
def handleReplayResponse (self : Subscriber) (requestId : UInt64) (frame : OwnedFrame) : Subscriber :=
  match self.receiver.recovery.handleReplayResponse requestId frame with
  | (.ok (some drained), recovery) =>
    drained.foldl forwardDrained { self with receiver := { self.receiver with recovery } }
  | (_, recovery) => { self with receiver := { self.receiver with recovery } }

/-- The `MessageType::ReplayUnavailable` arm. -/
def handleReplayUnavailable (self : Subscriber) (unavail : ReplayUnavailablePayload) : Subscriber :=
  let (_, recovery) := self.receiver.recovery.handleReplayUnavailable unavail
  { self with receiver := { self.receiver with recovery } }

def step (self : Subscriber) : Event → Subscriber
  | .timeouts now order => self.handleTimeouts now order
  | .data now frame => self.handleData now frame
  | .replayResponse requestId frame => self.handleReplayResponse requestId frame
  | .replayUnavailable unavail => self.handleReplayUnavailable unavail

/-! ## What one event does -/

variable {sub : Subscriber} {now : Instant} {frame : OwnedFrame}

@[simp] theorem handleData_receiver :
    (sub.handleData now frame).receiver = (sub.receiver.processDataFrame now frame).2 := by
  unfold handleData
  split <;> rename_i heq <;> rw [heq]

@[simp] theorem handleData_forwarded :
    (sub.handleData now frame).forwarded =
      sub.forwarded ++ (sub.receiver.processDataFrame now frame).1.frames := by
  unfold handleData
  split <;> rename_i heq <;> simp [heq, Delivery.frames]

theorem foldl_forwardDrained (drained : List OwnedFrame) (sub : Subscriber) :
    drained.foldl forwardDrained sub =
      { sub with
        receiver := { sub.receiver with
          highestDeliveredSequence :=
            (drained.map OwnedFrame.seq).foldl max sub.receiver.highestDeliveredSequence }
        forwarded := sub.forwarded ++ drained } := by
  induction drained generalizing sub with
  | nil => simp
  | cons f fs ih =>
    rw [List.foldl_cons, ih]
    simp [forwardDrained]

/-- What an event other than DATA does: it touches the engine, and releases the whole buffer when
a response completes its request. -/
inductive RecoveryStep (sub : Subscriber) : Event → Subscriber → Prop where
  | quiet {e : Event} {recovery : RecoveryEngine} {requested : List ReplayRequestPayload}
      (notData : ∀ now frame, e ≠ .data now frame)
      (notComplete : ∀ id frame, e = .replayResponse id frame →
        sub.receiver.recovery.completes id frame.seq = false)
      (buffered : recovery.bufferedOutOfOrder = sub.receiver.recovery.bufferedOutOfOrder) :
      RecoveryStep sub e
        { sub with receiver := { sub.receiver with recovery }, requested }
  | pending {id : UInt64} {frame : OwnedFrame} {recovery : RecoveryEngine}
      (notComplete : sub.receiver.recovery.completes id frame.seq = false)
      (buffered : recovery.bufferedOutOfOrder =
        sub.receiver.recovery.bufferedOutOfOrder.insert frame.seq frame) :
      RecoveryStep sub (.replayResponse id frame)
        { sub with receiver := { sub.receiver with recovery } }
  | released {id : UInt64} {frame : OwnedFrame} {recovery : RecoveryEngine}
      {drained : List OwnedFrame}
      (complete : sub.receiver.recovery.completes id frame.seq = true)
      (buffered : recovery.bufferedOutOfOrder = ∅)
      (drain : drained = OrderedMap.ascending
        (sub.receiver.recovery.bufferedOutOfOrder.insert frame.seq frame)) :
      RecoveryStep sub (.replayResponse id frame)
        { sub with
          receiver := { sub.receiver with
            recovery
            highestDeliveredSequence :=
              (drained.map OwnedFrame.seq).foldl max sub.receiver.highestDeliveredSequence }
          forwarded := sub.forwarded ++ drained }

theorem replayResponse_cases (sub : Subscriber) (id : UInt64) (frame : OwnedFrame) :
    RecoveryStep sub (.replayResponse id frame) (sub.handleReplayResponse id frame) := by
  unfold handleReplayResponse
  cases hget : sub.receiver.recovery.outstandingRequests[id]? with
  | none =>
    rw [RecoveryEngine.handleReplayResponse_unknown hget]
    refine .quiet (fun _ _ => nofun) ?_ rfl
    rintro _ _ ⟨rfl, rfl⟩
    rw [RecoveryEngine.completes, hget]
  | some req =>
    cases hcomplete : sub.receiver.recovery.completes id frame.seq with
    | false =>
      rw [RecoveryEngine.handleReplayResponse_pending hget hcomplete]
      exact .pending hcomplete rfl
    | true =>
      obtain ⟨hok, hbuffered⟩ := RecoveryEngine.handleReplayResponse_complete hcomplete
      generalize sub.receiver.recovery.handleReplayResponse id frame = result at hok hbuffered ⊢
      obtain ⟨outcome, recovery⟩ := result
      obtain rfl : outcome = _ := hok
      dsimp only
      rw [foldl_forwardDrained]
      exact .released hcomplete hbuffered rfl

/-- Every event is a DATA frame or one of the three. -/
theorem step_cases (sub : Subscriber) (e : Event) :
    (∃ now frame, e = .data now frame) ∨ RecoveryStep sub e (sub.step e) := by
  cases e with
  | timeouts now order =>
    refine Or.inr ?_
    have hbuffered : (sub.receiver.recovery.checkTimeouts now order).2.bufferedOutOfOrder = _ :=
      RecoveryEngine.checkTimeouts_buffered order
    unfold step handleTimeouts
    dsimp only
    split <;> rename_i heq <;> rw [heq] at hbuffered <;>
      exact .quiet (fun _ _ => nofun) (fun _ _ => nofun) hbuffered
  | data now frame => exact Or.inl ⟨now, frame, rfl⟩
  | replayResponse id frame => exact Or.inr (replayResponse_cases sub id frame)
  | replayUnavailable unavail => exact Or.inr (.quiet (fun _ _ => nofun) (fun _ _ => nofun) rfl)

/-- What has been forwarded stays. -/
theorem forwarded_grows (sub : Subscriber) (e : Event) :
    ∃ batch, (sub.step e).forwarded = sub.forwarded ++ batch := by
  rcases sub.step_cases e with ⟨now, f, rfl⟩ | hstep
  · exact ⟨_, handleData_forwarded⟩
  · generalize sub.step e = next at hstep
    cases hstep with
    | quiet notData notComplete buffered => exact ⟨[], by simp⟩
    | pending notComplete buffered => exact ⟨[], by simp⟩
    | released complete buffered drain => exact ⟨_, rfl⟩

end Subscriber

end Rtdp
