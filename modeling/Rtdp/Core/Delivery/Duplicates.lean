import Rtdp.Core.Delivery.Reassembly

/-!
# Duplicates in `ReliableOrdered` mode

A frame whose key is in the duplicate window is not delivered, but the tracker
has observed it before the filter is asked. The observation makes its publisher
the active one, and moves the expectation if the frame has the sequence expected
of it. Neither happens while one publisher sends alone.
-/

namespace Rtdp

namespace StreamReceiver

variable {rx : StreamReceiver} {now : Instant} {frame : OwnedFrame}

/-- The filter knows the frame. -/
def IsDuplicate (rx : StreamReceiver) (frame : OwnedFrame) : Prop :=
  rx.keyOf frame ∈ rx.dedup.recentKeys

instance : Decidable (rx.IsDuplicate frame) := inferInstanceAs (Decidable (_ ∈ _))

/-- The frame is dropped, and leaves alone what decides on the frames after it. -/
structure NoEffect (rx : StreamReceiver) (now : Instant) (frame : OwnedFrame) : Prop where
  delivery : (rx.processDataFrame now frame).1 = .ok ([], none)
  active : (rx.processDataFrame now frame).2.tracker.activePublisherId = rx.tracker.activePublisherId
  expected : (rx.processDataFrame now frame).2.tracker.expectedSequence = rx.tracker.expectedSequence
  buffered : (rx.processDataFrame now frame).2.recovery.bufferedOutOfOrder = rx.recovery.bufferedOutOfOrder
  outstanding :
    (rx.processDataFrame now frame).2.recovery.outstandingRequests = rx.recovery.outstandingRequests

theorem processDataFrame_duplicate (mode : rx.mode = .reliableOrdered) (now : Instant)
    (dup : rx.IsDuplicate frame) : rx.processDataFrame now frame = (.ok ([], none), rx.observed frame) := by
  have hcases := reliable_cases mode now frame
  generalize rx.processDataFrame now frame = result at hcases ⊢
  cases hcases with
  | suppressed dup => rfl
  | inOrder fresh live expected => exact absurd dup fresh
  | reset fresh other started first => exact absurd dup fresh
  | gap fresh unexpected ahead => exact absurd dup fresh
  | old fresh same behind => exact absurd dup fresh

/-- A frame the tracker expects nothing of: its publisher is active, at another sequence. -/
def OffExpectation (rx : StreamReceiver) (frame : OwnedFrame) : Prop :=
  rx.tracker.activePublisherId = some frame.header.publisherId ∧ frame.seq ≠ rx.tracker.expectedSequence

instance : Decidable (rx.OffExpectation frame) := inferInstanceAs (Decidable (_ ∧ _))

/-- **Step** -/
theorem noEffect_iff (mode : rx.mode = .reliableOrdered) (now : Instant) (dup : rx.IsDuplicate frame) :
    rx.NoEffect now frame ↔ rx.OffExpectation frame := by
  have hprocess := processDataFrame_duplicate mode now dup
  have hexpected : (rx.observed frame).tracker.expectedSequence = _ := observed_expected
  constructor
  · intro noEffect
    have hactive := noEffect.active
    have hkept := noEffect.expected
    rw [hprocess, observed_active] at hactive
    refine ⟨hactive.symm, fun heq => ?_⟩
    rw [hprocess, hexpected, expectedOf, StreamSequenceTracker.expectedFor_active hactive.symm, if_pos heq] at hkept
    exact absurd hkept (by simp)
  · rintro ⟨hactive, hne⟩
    rw [expectedOf, StreamSequenceTracker.expectedFor_active hactive, if_neg hne] at hexpected
    constructor
    · rw [hprocess]
    · rw [hprocess, observed_active, hactive]
    · rw [hprocess, hexpected]
    · rw [hprocess, observed_recovery]
    · rw [hprocess, observed_recovery]

end StreamReceiver

/-- No duplicate of the run has an effect on the receiver. -/
def DuplicatesInert (config : RecoveryConfig) (streamId : UInt64) (arrivals : List Arrival) : Prop :=
  Runs.Each Feed.call (fun σ a => σ.receiver.IsDuplicate a.frame → σ.receiver.NoEffect a.now a.frame)
    (Feed.of (StreamReceiver.new streamId .reliableOrdered config)) arrivals

/-- A duplicate of the only publisher was received before, and what is expected was not. -/
theorem Synced.offExpectation {p : UInt64} {received : List OwnedFrame} {rx : StreamReceiver}
    {frame : OwnedFrame} (h : Synced p received rx) (hp : frame.header.publisherId = p)
    (dup : rx.IsDuplicate frame) : rx.OffExpectation frame := by
  have hreceived : frame.seq.toNat ∈ seqsOf received := h.recorded _ dup hp
  have hactive : rx.tracker.activePublisherId = some p := by
    refine h.active.resolve_right ?_
    rintro rfl
    obtain ⟨g, hg, -⟩ := hreceived
    cases hg
  refine ⟨hp ▸ hactive, fun heq => h.frontier.not_mem ?_⟩
  rwa [StreamSequenceTracker.expectedFor_active hactive, ← heq]

/-- The duplicates of a publisher that sends alone have no effect. -/
theorem duplicates_inert_alone (config : RecoveryConfig) (streamId p : UInt64) {arrivals : List Arrival}
    (hp : ∀ a ∈ arrivals, a.frame.header.publisherId = p)
    (hseq : ∀ a ∈ arrivals, 1 ≤ a.frame.seq.toNat ∧ a.frame.seq.toNat ≤ 2 ^ 64 - 2) :
    DuplicatesInert config streamId arrivals := by
  rw [DuplicatesInert, Runs.each_iff_split]
  rintro before a after rfl dup
  have hbefore : Reassembled p (before.map Arrival.frame)
      ((StreamReceiver.new streamId .reliableOrdered config).feed before) :=
    reassembled_run config streamId p (fun b hb => hp b (List.mem_append_left _ hb))
      fun b hb => hseq b (List.mem_append_left _ hb)
  refine (StreamReceiver.noEffect_iff hbefore.synced.mode a.now dup).mpr ?_
  exact hbefore.synced.offExpectation (hp a (by simp)) dup

/-- **Duplicates** have no effect in exactly the runs that bring each of them off the expectation of
its own, active publisher. -/
theorem duplicates_inert_iff (config : RecoveryConfig) (streamId : UInt64) (arrivals : List Arrival) :
    DuplicatesInert config streamId arrivals ↔
      Runs.Each Feed.call (fun σ a => σ.receiver.IsDuplicate a.frame → σ.receiver.OffExpectation a.frame)
        (Feed.of (StreamReceiver.new streamId .reliableOrdered config)) arrivals := by
  refine Runs.each_iff (fun σ : Feed => σ.receiver.mode = .reliableOrdered) (fun σ a mode => ?_)
    (fun σ a mode => ?_) rfl
  · exact (StreamReceiver.observed_after mode a.now a.frame).mode
  · exact forall_congr' fun dup => StreamReceiver.noEffect_iff mode a.now dup

/-- A publisher restarts; a duplicate of its first frame makes the old publisher active again. -/
theorem duplicate_takes_over :
    ¬ DuplicatesInert RecoveryConfig.default 1 (arrivalsOf 7 [1] ++ arrivalsOf 8 [1] ++ arrivalsOf 7 [1]) := by
  rintro ⟨-, -, inert, -⟩
  exact absurd (inert (by decide +kernel)).active (by decide +kernel)

end Rtdp
