import Rtdp.Core.Delivery.Arithmetic
import Rtdp.Transport.Datagrams

/-!
# Arithmetic under hostile packets

The worker under checked arithmetic, fed any packets. Only DATA frames make it
compute: the arms of replay traffic compare and store, and `check_timeouts` adds
one to a count below `max_retries`. A run goes through exactly when every DATA
frame is in range of the receiver it meets.
-/

namespace Rtdp
open Checked

/-- What a turn of the worker's loop meets. -/
inductive Turn where
  | timeouts (now : Instant) (order : List UInt64)
  | packet (now : Instant) (bytes : List UInt8)

namespace Subscriber

/-- A turn: a packet that is no event is skipped. -/
def turn (crc32c : List UInt8 → UInt32) (codec : FrameCodec) (streamId : UInt64) (self : Subscriber) :
    Turn → Subscriber
  | .timeouts now order => self.step (.timeouts now order)
  | .packet now bytes =>
    match eventOf crc32c codec streamId now bytes with
    | some e => self.step e
    | none => self

/-- The `MessageType::Data` arm, checked. -/
def handleDataChecked (self : Subscriber) (now : Instant) (frame : OwnedFrame) : Option Subscriber := do
  match ← self.receiver.processDataFrameChecked now frame with
  | (.ok (toDeliver, maybeReplay), receiver) =>
    some { self with
      receiver
      forwarded := self.forwarded ++ toDeliver
      requested := self.requested ++ maybeReplay.toList }
  | (.error _, receiver) => some { self with receiver }

def stepChecked (self : Subscriber) : Event → Option Subscriber
  | .data now frame => self.handleDataChecked now frame
  | e => some (self.step e)

/-- A turn, checked. -/
def turnChecked (crc32c : List UInt8 → UInt32) (codec : FrameCodec) (streamId : UInt64)
    (self : Subscriber) : Turn → Option Subscriber
  | .timeouts now order => self.stepChecked (.timeouts now order)
  | .packet now bytes =>
    match eventOf crc32c codec streamId now bytes with
    | some e => self.stepChecked e
    | none => some self

/-- A DATA frame is in range of the receiver. -/
def EventInRange (sub : Subscriber) : Event → Prop
  | .data _ frame => sub.receiver.InRange frame
  | _ => True

def TurnInRange (crc32c : List UInt8 → UInt32) (codec : FrameCodec) (streamId : UInt64)
    (sub : Subscriber) : Turn → Prop
  | .timeouts _ _ => True
  | .packet now bytes => ∀ e, eventOf crc32c codec streamId now bytes = some e → sub.EventInRange e

/-- Frames are buffered under their own sequence. -/
def Keyed (sub : Subscriber) : Prop :=
  OrderedMap.Keyed OwnedFrame.seq sub.receiver.recovery.bufferedOutOfOrder

variable {sub : Subscriber}

theorem keyed_step (h : sub.Keyed) (e : Event) : (sub.step e).Keyed := by
  rcases sub.step_cases e with ⟨now, f, rfl⟩ | hstep
  · rw [Keyed, step, handleData_receiver]
    exact StreamReceiver.processDataFrame_keyed h now f
  · generalize sub.step e = next at hstep
    cases hstep with
    | quiet notData notComplete buffered =>
      rw [Keyed, buffered]
      exact h
    | pending notComplete buffered =>
      rw [Keyed, buffered]
      exact h.insert _
    | released complete buffered drain =>
      rw [Keyed, buffered]
      exact OrderedMap.Keyed.empty

theorem stepChecked_guarded (h : sub.Keyed) (e : Event) :
    Guarded (sub.stepChecked e) (sub.EventInRange e) (sub.step e) := by
  cases e with
  | data now frame =>
    refine (StreamReceiver.processDataFrameChecked_guarded h now frame).map ?_
    unfold step handleData
    dsimp only
    rcases sub.receiver.processDataFrame now frame with ⟨_ | _, _⟩ <;> rfl
  | timeouts now order => exact .pure _
  | replayResponse id frame => exact .pure _
  | replayUnavailable unavail => exact .pure _

variable {crc32c : List UInt8 → UInt32} {codec : FrameCodec} {streamId : UInt64}

theorem keyed_turn (h : sub.Keyed) (t : Turn) : (sub.turn crc32c codec streamId t).Keyed := by
  cases t with
  | timeouts now order => exact keyed_step h _
  | packet now bytes =>
    unfold turn
    dsimp only
    split
    · exact keyed_step h _
    · exact h

/-- **Turn**: it goes through exactly if its packet is in range. -/
theorem turnChecked_guarded (h : sub.Keyed) (t : Turn) :
    Guarded (sub.turnChecked crc32c codec streamId t) (sub.TurnInRange crc32c codec streamId t)
      (sub.turn crc32c codec streamId t) := by
  cases t with
  | timeouts now order => exact .pure _
  | packet now bytes =>
    unfold turnChecked turn TurnInRange
    dsimp only
    cases hevent : eventOf crc32c codec streamId now bytes with
    | none =>
      apply (Guarded.pure sub).congr
      simp
    | some e =>
      apply (stepChecked_guarded h e).congr
      simp

/-- No operation of the run leaves the range of `u64`. -/
def NeverOverflows (crc32c : List UInt8 → UInt32) (codec : FrameCodec) (streamId : UInt64)
    (sub : Subscriber) (turns : List Turn) : Prop :=
  (turns.foldlM (turnChecked crc32c codec streamId) sub).isSome

instance (crc32c : List UInt8 → UInt32) (codec : FrameCodec) (streamId : UInt64) (sub : Subscriber)
    (turns : List Turn) : Decidable (NeverOverflows crc32c codec streamId sub turns) :=
  inferInstanceAs (Decidable (_ = true))

end Subscriber

/-- **A run never overflows** exactly if every DATA frame is in range of the receiver it meets,
whatever the mode, the configuration and the packets. -/
theorem subscriber_never_overflows (crc32c : List UInt8 → UInt32) (codec : FrameCodec)
    (streamId : UInt64) (mode : DeliveryMode) (config : RecoveryConfig) (turns : List Turn) :
    (Subscriber.new streamId mode config).NeverOverflows crc32c codec streamId turns ↔
      Runs.Each (Subscriber.turn crc32c codec streamId) (Subscriber.TurnInRange crc32c codec streamId)
        (Subscriber.new streamId mode config) turns := by
  have hfresh : (Subscriber.new streamId mode config).Keyed := OrderedMap.Keyed.empty
  exact (Guarded.foldlM Subscriber.Keyed (fun _ t h => Subscriber.keyed_turn h t)
    (fun _ t h => Subscriber.turnChecked_guarded h t) hfresh turns).isSome_iff

/-- One DATA frame of sequence 0: `sequence - 1` underflows. -/
theorem sequence_zero_underflows :
    ¬ (Subscriber.new 1 .bestEffort RecoveryConfig.default).NeverOverflows crc32c
      FrameCodec.withDefaultConfig 1
      [.packet 0 ((OwnedFrame.newData 1 0 0 100 []).sealed crc32c)] := by
  decide +kernel

end Rtdp
