import Rtdp.Core.Delivery.Arithmetic
import Rtdp.Core.Delivery.Latest
import Rtdp.Transport.Subscriber

/-!
# Where forwarded frames come from

In every mode the worker forwards and buffers frames as they were handed to it:
it makes none up and alters none. Whatever holds of all the frames that reach it
therefore holds of all it forwards.
-/

namespace Rtdp

namespace StreamReceiver

variable {rx : StreamReceiver} {f : OwnedFrame}

/-- What a call delivers and buffers is its own frame, or was buffered before. -/
structure FramesFrom (rx : StreamReceiver) (f : OwnedFrame) (result : Delivery × StreamReceiver) : Prop where
  delivered : ∀ g ∈ result.1.frames, g = f ∨ ∃ k : UInt64, rx.recovery.bufferedOutOfOrder[k]? = some g
  buffered : ∀ (k : UInt64) g, result.2.recovery.bufferedOutOfOrder[k]? = some g →
    g = f ∨ rx.recovery.bufferedOutOfOrder[k]? = some g

/-- A call that delivers at most its frame and leaves the buffer alone. -/
theorem FramesFrom.of_own {result : Delivery × StreamReceiver} (own : ∀ g ∈ result.1.frames, g = f)
    (kept : result.2.recovery.bufferedOutOfOrder = rx.recovery.bufferedOutOfOrder) :
    FramesFrom rx f result :=
  ⟨fun g hg => Or.inl (own g hg), fun _ _ hg => Or.inr (kept ▸ hg)⟩

/-- `AtLeastOnce` delivers the frame itself or nothing. -/
theorem atLeastOnce_own (mode : rx.mode = .atLeastOnce) (now : Instant) (f : OwnedFrame) :
    ∀ g ∈ (rx.processDataFrame now f).1.frames, g = f := by
  rw [processDataFrame_atLeastOnce mode]
  unfold processAtLeastOnce
  intro g hg
  split at hg
  · exact List.mem_singleton.mp hg
  · dsimp only at hg
    split at hg
    · cases hg
    · exact List.mem_singleton.mp hg
  · exact List.mem_singleton.mp hg
  · exact List.mem_singleton.mp hg

theorem framesFrom_atLeastOnce (mode : rx.mode = .atLeastOnce) (now : Instant) (f : OwnedFrame) :
    FramesFrom rx f (rx.processDataFrame now f) := by
  refine .of_own (atLeastOnce_own mode now f) ?_
  rw [processDataFrame_atLeastOnce mode, (processAtLeastOnce_after _ now f f.seq _).buffered]

theorem framesFrom_reliableOrdered (mode : rx.mode = .reliableOrdered)
    (keyed : OrderedMap.Keyed OwnedFrame.seq rx.recovery.bufferedOutOfOrder) (now : Instant)
    (f : OwnedFrame) : FramesFrom rx f (rx.processDataFrame now f) := by
  have hcases := reliable_cases mode now f
  generalize rx.processDataFrame now f = result at hcases ⊢
  cases hcases with
  | suppressed dup => exact .of_own (fun _ hg => absurd hg List.not_mem_nil) rfl
  | inOrder fresh live expected =>
    obtain ⟨drained, left, n, hspec, hd⟩ := deliverInOrder_drained keyed f
    refine ⟨fun g hg => ?_, fun k g hg => Or.inr ?_⟩
    · rw [hspec.frames] at hg
      rcases List.mem_cons.mp hg with rfl | hg
      · exact Or.inl rfl
      · exact Or.inr ⟨g.seq, hd.taken g hg⟩
    · rw [hspec.recovery, hd.left_get] at hg
      split at hg
      · cases hg
      · exact hg
  | reset fresh other started first =>
    refine ⟨fun g hg => Or.inl (List.mem_singleton.mp hg), fun k g hg => ?_⟩
    simp [RecoveryEngine.reset] at hg
  | gap fresh unexpected ahead =>
    obtain ⟨hframes, -⟩ := bufferGap_spec (rx.observed f) now f (rx.expectedOf f) (f.seq - 1)
    refine ⟨fun g hg => ?_, fun k g hg => ?_⟩
    · rw [hframes] at hg
      cases hg
    · rw [bufferGap_get] at hg
      split at hg
      · cases hg
        exact Or.inl rfl
      · exact Or.inr hg
  | old fresh same behind => exact .of_own (fun _ hg => absurd hg List.not_mem_nil) rfl

/-- In every mode. -/
theorem processDataFrame_framesFrom
    (keyed : OrderedMap.Keyed OwnedFrame.seq rx.recovery.bufferedOutOfOrder) (now : Instant)
    (f : OwnedFrame) : FramesFrom rx f (rx.processDataFrame now f) := by
  cases hmode : rx.mode with
  | bestEffort =>
    simp only [processDataFrame, hmode]
    exact .of_own (fun g hg => List.mem_singleton.mp hg) rfl
  | latest =>
    rw [processDataFrame_latest hmode]
    split
    · exact .of_own (fun g hg => List.mem_singleton.mp hg) rfl
    · exact .of_own (fun _ hg => absurd hg List.not_mem_nil) rfl
  | atLeastOnce => exact framesFrom_atLeastOnce hmode now f
  | reliableOrdered => exact framesFrom_reliableOrdered hmode keyed now f

end StreamReceiver

/-- The frame an event brings, if any, has the property. -/
def Event.Brings (P : OwnedFrame → Prop) : Event → Prop
  | .data _ f => P f
  | .replayResponse _ f => P f
  | .timeouts _ _ => True
  | .replayUnavailable _ => True

namespace Subscriber

variable {P : OwnedFrame → Prop} {sub : Subscriber}

/-- Whatever was forwarded or is buffered has the property. -/
structure Carries (P : OwnedFrame → Prop) (sub : Subscriber) : Prop where
  keyed : OrderedMap.Keyed OwnedFrame.seq sub.receiver.recovery.bufferedOutOfOrder
  forwarded : ∀ g ∈ sub.forwarded, P g
  buffered : ∀ (k : UInt64) g, sub.receiver.recovery.bufferedOutOfOrder[k]? = some g → P g

namespace Carries

theorem fresh (P : OwnedFrame → Prop) (streamId : UInt64) (mode : DeliveryMode) (cfg : RecoveryConfig) :
    Carries P (Subscriber.new streamId mode cfg) where
  keyed := .empty
  forwarded := fun _ hg => absurd hg List.not_mem_nil
  buffered := fun k g hg => by simp [Subscriber.new] at hg

theorem mono {Q : OwnedFrame → Prop} (h : Carries P sub) (weaker : ∀ g, P g → Q g) : Carries Q sub :=
  ⟨h.keyed, fun g hg => weaker g (h.forwarded g hg), fun k g hg => weaker g (h.buffered k g hg)⟩

theorem data (h : Carries P sub) (now : Instant) {f : OwnedFrame} (hf : P f) :
    Carries P (sub.handleData now f) := by
  have origin := StreamReceiver.processDataFrame_framesFrom h.keyed now f
  refine ⟨?_, fun g hg => ?_, fun k g hg => ?_⟩
  · rw [handleData_receiver]
    exact StreamReceiver.processDataFrame_keyed h.keyed now f
  · rw [handleData_forwarded] at hg
    rcases List.mem_append.mp hg with hg | hg
    · exact h.forwarded g hg
    · rcases origin.delivered g hg with rfl | ⟨k, hk⟩
      · exact hf
      · exact h.buffered k g hk
  · rw [handleData_receiver] at hg
    rcases origin.buffered k g hg with rfl | hold
    · exact hf
    · exact h.buffered k g hold

/-- **Step**: in every mode. -/
theorem step (h : Carries P sub) {e : Event} (brings : e.Brings P) : Carries P (sub.step e) := by
  rcases sub.step_cases e with ⟨now, f, rfl⟩ | hstep
  · exact h.data now brings
  · generalize sub.step e = next at hstep
    cases hstep with
    | quiet notData notComplete buffered =>
      refine ⟨?_, h.forwarded, fun k g hg => ?_⟩
      · rw [buffered]
        exact h.keyed
      · rw [buffered] at hg
        exact h.buffered k g hg
    | @pending id frame recovery notComplete buffered =>
      refine ⟨?_, h.forwarded, fun k g hg => ?_⟩
      · rw [buffered]
        exact h.keyed.insert _
      · rw [buffered] at hg
        obtain ⟨-, rfl⟩ | ⟨-, hold⟩ := OrderedMap.get_insert_cases hg
        · exact brings
        · exact h.buffered k g hold
    | @released id frame recovery drained complete buffered drain =>
      refine ⟨?_, fun g hg => ?_, fun k g hg => ?_⟩
      · rw [buffered]
        exact .empty
      · rcases List.mem_append.mp hg with hg | hg
        · exact h.forwarded g hg
        · rw [drain, (h.keyed.insert frame).mem_ascending] at hg
          obtain ⟨-, rfl⟩ | ⟨-, hold⟩ := OrderedMap.get_insert_cases hg
          · exact brings
          · exact h.buffered _ g hold
      · rw [buffered] at hg
        simp at hg

end Carries

end Subscriber

end Rtdp
