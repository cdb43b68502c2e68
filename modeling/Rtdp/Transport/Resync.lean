import Rtdp.Transport.Accounted

/-!
# Where the tracker stands after a replay

A completed replay forwards frames without moving the tracker. When the last
request completes and everything up to the highest sequence has been forwarded,
the tracker stands right behind it exactly when the DATA path had passed all of
it before; otherwise the next frame opens a gap of sequences already delivered.
-/

namespace Rtdp

namespace Subscriber

/-- The response completes the last outstanding request, and `1, …, h` have then been forwarded,
with nothing above `h`. -/
structure CompletesLast (sub : Subscriber) (id : UInt64) (f : OwnedFrame) (h : UInt64) : Prop where
  complete : sub.receiver.recovery.completes id f.seq = true
  last : (sub.handleReplayResponse id f).receiver.recovery.outstandingRequests = ∅
  highest : ∀ g ∈ (sub.handleReplayResponse id f).forwarded, g.seq ≤ h
  all : ∀ k, 0 < k → k ≤ h → k ∈ (sub.handleReplayResponse id f).forwarded.map OwnedFrame.seq

/-- The same, from the list of what has been forwarded. -/
theorem completesLast_of_list {sub : Subscriber} {id h : UInt64} {f : OwnedFrame} (seqs : List UInt64)
    (complete : sub.receiver.recovery.completes id f.seq = true)
    (last : (sub.handleReplayResponse id f).receiver.recovery.outstandingRequests.isEmpty = true)
    (forwarded : (sub.handleReplayResponse id f).forwarded.map OwnedFrame.seq = seqs)
    (highest : ∀ s ∈ seqs, s ≤ h) (all : ∀ n ∈ List.range h.toNat, UInt64.ofNat (n + 1) ∈ seqs) :
    CompletesLast sub id f h := by
  refine ⟨complete, Std.ExtTreeMap.isEmpty_iff.mp last, fun g hg => ?_, fun k hpos hle => ?_⟩
  · apply highest
    rw [← forwarded]
    exact List.mem_map_of_mem hg
  · rw [UInt64.lt_iff_toNat_lt, UInt64.toNat_zero] at hpos
    rw [UInt64.le_iff_toNat_le] at hle
    have hmem := all (k.toNat - 1) (List.mem_range.mpr (by omega))
    rw [Nat.sub_add_cancel hpos, UInt64.ofNat_toNat] at hmem
    rw [forwarded]
    exact hmem

/-- The tracker is right behind `h`: its next frame is delivered at once, and asks for nothing. -/
def Resynced (p : UInt64) (rx : StreamReceiver) (h : UInt64) : Prop :=
  rx.tracker.expectedSequence.toNat = h.toNat + 1 ∧
    ∀ (now : Instant) (f : OwnedFrame), f.header.publisherId = p → f.seq = h + 1 →
      f ∈ (rx.processDataFrame now f).1.frames ∧ (rx.processDataFrame now f).1.request = none

variable {p : UInt64} {sub : Subscriber} {id h : UInt64} {f : OwnedFrame}

/-- The next frame at the expectation, in a state in which it is not accounted for. -/
theorem Accounted.next_delivered (acc : Accounted p sub) (now : Instant)
    (hp : f.header.publisherId = p) (hpos : 0 < f.seq)
    (hexp : f.seq = sub.receiver.tracker.expectedFor p) (new : ¬ sub.Has f.seq) :
    f ∈ (sub.receiver.processDataFrame now f).1.frames ∧
      (sub.receiver.processDataFrame now f).1.request = none := by
  have hlive := acc.live
  rw [← hp] at hlive hexp
  rcases acc.mode with mode | mode
  · have accepts : sub.receiver.Accepts f := by
      refine ⟨fun hrec => new ?_, hexp⟩
      exact acc.recorded _ hrec hp hpos
    rw [StreamReceiver.processDataFrame_inOrder mode now hlive accepts,
      (StreamReceiver.deliverInOrder_spec (sub.receiver.observed f) f f.seq).frames]
    exact ⟨List.mem_cons_self, rfl⟩
  · rw [StreamReceiver.atLeastOnce_expected mode now hlive hexp]
    exact ⟨List.mem_cons_self, rfl⟩

/-- What a completing response leaves: the buffer is empty, everything accounted for is forwarded,
and the tracker has not moved. -/
structure Emptied (sub : Subscriber) (f : OwnedFrame) (next : Subscriber) : Prop where
  forwarded : ∀ k, k ∈ next.forwarded.map OwnedFrame.seq ↔ k = f.seq ∨ sub.Has k
  buffered : next.receiver.recovery.bufferedOutOfOrder = ∅
  tracker : next.receiver.tracker = sub.receiver.tracker

theorem Accounted.emptied (acc : Accounted p sub)
    (complete : sub.receiver.recovery.completes id f.seq = true) :
    Emptied sub f (sub.handleReplayResponse id f) := by
  have hstep := replayResponse_cases sub id f
  generalize sub.handleReplayResponse id f = next at hstep ⊢
  cases hstep with
  | quiet notData notComplete buffered =>
    rw [notComplete id f rfl] at complete
    cases complete
  | pending notComplete buffered =>
    rw [notComplete] at complete
    cases complete
  | released _ buffered drain =>
    refine ⟨fun k => ?_, buffered, rfl⟩
    rw [List.map_append, List.mem_append, drain, RecoveryEngine.mem_released acc.keyed, Has]
    constructor
    · rintro (hk | hk | hk)
      · exact Or.inr (Or.inl hk)
      · exact Or.inl hk
      · exact Or.inr (Or.inr hk)
    · rintro (hk | hk | hk)
      · exact Or.inr (Or.inl hk)
      · exact Or.inl hk
      · exact Or.inr (Or.inr hk)

/-- With nothing buffered, nothing beyond the last sequence forwarded is accounted for. -/
theorem not_has_beyond (empty : sub.receiver.recovery.bufferedOutOfOrder = ∅)
    (highest : ∀ k, k ∈ sub.forwarded.map OwnedFrame.seq → k.toNat ≤ h.toNat) {k : UInt64}
    (beyond : h.toNat < k.toNat) : ¬ sub.Has k := by
  rintro (hmem | ⟨g, hg⟩)
  · exact absurd (highest k hmem) (by omega)
  · rw [empty] at hg
    cases hg

/-- An expectation above all that was forwarded, with nothing buffered, is the sequence after the
last one. -/
theorem Accounted.expected_after (acc : Accounted p sub)
    (empty : sub.receiver.recovery.bufferedOutOfOrder = ∅)
    (highest : ∀ k, k ∈ sub.forwarded.map OwnedFrame.seq → k.toNat ≤ h.toNat)
    (above : h.toNat < (sub.receiver.tracker.expectedFor p).toNat) :
    (sub.receiver.tracker.expectedFor p).toNat = h.toNat + 1 := by
  by_contra hne
  have hsucc : (h + 1).toNat = h.toNat + 1 := Counter.toNat_succ_of_lt (UInt64.lt_iff_toNat_lt.mpr above)
  apply not_has_beyond empty highest (k := h + 1) (by omega)
  apply acc.below
  · rw [UInt64.lt_iff_toNat_lt, UInt64.toNat_zero]
    omega
  · rw [UInt64.lt_iff_toNat_lt]
    omega

/-- **Resynchronisation** in an accounted state. -/
theorem Accounted.resynced_iff (acc : Accounted p sub) (done : CompletesLast sub id f h) :
    Resynced p (sub.handleReplayResponse id f).receiver h ↔
      ∀ k, k = f.seq ∨ sub.Has k → k < sub.receiver.tracker.expectedSequence := by
  rw [acc.expected]
  have hemptied := acc.emptied done.complete
  have hnext : Accounted p (sub.handleReplayResponse id f) := acc.recovery (replayResponse_cases sub id f)
  have hhighest := done.highest
  have hall := done.all
  generalize sub.handleReplayResponse id f = next at hemptied hnext hhighest hall ⊢
  have hbound : ∀ k, k ∈ next.forwarded.map OwnedFrame.seq → k.toNat ≤ h.toNat := by
    intro k hk
    obtain ⟨g, hg, rfl⟩ := List.mem_map.mp hk
    exact UInt64.le_iff_toNat_le.mp (hhighest g hg)
  have hsame : next.receiver.tracker.expectedFor p = sub.receiver.tracker.expectedFor p := by
    rw [hemptied.tracker]
  constructor
  · rintro ⟨hexp, -⟩ k hk
    have hle := hbound k ((hemptied.forwarded k).mpr hk)
    rw [← hsame, ← hnext.expected, UInt64.lt_iff_toNat_lt, hexp]
    omega
  · intro hbelow
    -- the expectation is above everything forwarded, and everything below it is forwarded
    have hgt : h.toNat < (next.receiver.tracker.expectedFor p).toNat := by
      rw [hsame]
      by_cases hzero : h = 0
      · have := UInt64.lt_iff_toNat_lt.mp (hbelow f.seq (Or.inl rfl))
        rw [hzero, UInt64.toNat_zero]
        omega
      · have hin := hall h (UInt64.pos_iff_ne_zero.mpr hzero) UInt64.le_rfl
        exact UInt64.lt_iff_toNat_lt.mp (hbelow h ((hemptied.forwarded h).mp hin))
    have hexp := hnext.expected_after hemptied.buffered hbound hgt
    refine ⟨by rw [hnext.expected, hexp], fun now d hd hseq => ?_⟩
    have hat : d.seq = next.receiver.tracker.expectedFor p := by
      apply UInt64.toNat_inj.mp
      rw [hseq, hexp, Counter.toNat_succ_of_lt (UInt64.lt_iff_toNat_lt.mpr hgt)]
    refine hnext.next_delivered now hd ?_ hat (not_has_beyond hemptied.buffered hbound (hat ▸ hgt))
    rw [hat, UInt64.lt_iff_toNat_lt, UInt64.toNat_zero]
    omega

end Subscriber

/-- **Resynchronisation after replay**: in every reachable state, a response that completes the
last request and leaves `1, …, h` forwarded resynchronises the tracker exactly when the tracker
had already passed every sequence forwarded by then. -/
theorem subscriber_resync (streamId p : UInt64) (cfg : RecoveryConfig) {mode : DeliveryMode}
    (hmode : mode = .reliableOrdered ∨ mode = .atLeastOnce) (events : List Event)
    (hp : ∀ e ∈ events, e.OfPublisher p) (id h : UInt64) (f : OwnedFrame)
    (done : (Runs.run Subscriber.step (Subscriber.new streamId mode cfg) events).CompletesLast id f h) :
    let sub := Runs.run Subscriber.step (Subscriber.new streamId mode cfg) events
    Subscriber.Resynced p (sub.step (.replayResponse id f)).receiver h ↔
      ∀ k, k = f.seq ∨ sub.Has k → k < sub.receiver.tracker.expectedSequence :=
  ((Subscriber.Accounted.fresh streamId p cfg hmode).run hp).resynced_iff done

/-- The late original of frame 2 arrives before its replay completes. -/
theorem subscriber_resync_late_original :
    Subscriber.Resynced 9 ((Runs.run Subscriber.step
      (Subscriber.new 1 .reliableOrdered RecoveryConfig.default) (dataEvents 9 [1, 3, 2])).step
        (replayOf 1 9 2)).receiver 3 := by
  have done : (Runs.run Subscriber.step (Subscriber.new 1 .reliableOrdered RecoveryConfig.default)
      (dataEvents 9 [1, 3, 2])).CompletesLast 1 (OwnedFrame.newData 1 2 0 9 []) 3 :=
    Subscriber.completesLast_of_list [1, 2, 3, 2] (by decide +kernel) (by decide +kernel)
      (by decide +kernel) (by simp) (by decide)
  apply (subscriber_resync 1 9 RecoveryConfig.default (Or.inl rfl) _ (by decide) 1 3 _ done).mpr
  have hbelow : ((Runs.run Subscriber.step
      (Subscriber.new 1 .reliableOrdered RecoveryConfig.default) (dataEvents 9 [1, 3, 2])).forwarded.map
        OwnedFrame.seq).all (· < 4) = true := by decide +kernel
  have hbuffered : (Runs.run Subscriber.step
      (Subscriber.new 1 .reliableOrdered RecoveryConfig.default)
        (dataEvents 9 [1, 3, 2])).receiver.recovery.bufferedOutOfOrder.isEmpty = true := by decide +kernel
  have hexpected : (Runs.run Subscriber.step
      (Subscriber.new 1 .reliableOrdered RecoveryConfig.default)
        (dataEvents 9 [1, 3, 2])).receiver.tracker.expectedSequence = 4 := by decide +kernel
  rintro k (rfl | hk | ⟨g, hg⟩)
  · decide +kernel
  · rw [hexpected]
    exact of_decide_eq_true (List.all_eq_true.mp hbelow k hk)
  · rw [Std.ExtTreeMap.isEmpty_iff.mp hbuffered] at hg
    cases hg

/-- A gap filled by its replay: `1, 2, 3` are forwarded and nothing is outstanding, but the tracker
still expects 2. -/
theorem subscriber_replay_leaves_tracker :
    ∃ sub : Subscriber,
      sub = Runs.run Subscriber.step (Subscriber.new 1 .reliableOrdered RecoveryConfig.default)
        (dataEvents 9 [1, 3]) ∧
      sub.CompletesLast 1 (OwnedFrame.newData 1 2 0 9 []) 3 ∧
      ¬ Subscriber.Resynced 9 (sub.step (replayOf 1 9 2)).receiver 3 := by
  refine ⟨_, rfl, ?_, ?_⟩
  · exact Subscriber.completesLast_of_list [1, 2, 3] (by decide +kernel) (by decide +kernel)
      (by decide +kernel) (by simp) (by decide)
  · intro h
    exact absurd h.1 (by decide +kernel)

end Rtdp
