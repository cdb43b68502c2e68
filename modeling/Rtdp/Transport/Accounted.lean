import Rtdp.Transport.Subscriber
import Rtdp.Core.Delivery.ReliableOrdered
import Rtdp.Core.Delivery.AtLeastOnce

/-!
# What the tracker has passed is accounted for

Whatever the interleaving of DATA and replay traffic of one publisher, in
`ReliableOrdered` and in `AtLeastOnce` mode: every sequence below the tracker's
expectation, and every sequence the duplicate filter knows, has been forwarded
or is in the out-of-order buffer. This says nothing yet about order.
-/

namespace Rtdp

namespace Subscriber

/-- The sequence was forwarded, or is buffered. -/
def Has (sub : Subscriber) (k : UInt64) : Prop :=
  k ∈ sub.forwarded.map OwnedFrame.seq ∨ ∃ g, sub.receiver.recovery.bufferedOutOfOrder[k]? = some g

structure Accounted (p : UInt64) (sub : Subscriber) : Prop where
  mode : sub.receiver.mode = .reliableOrdered ∨ sub.receiver.mode = .atLeastOnce
  live : sub.receiver.tracker.activePublisherId = none ∨
    sub.receiver.tracker.activePublisherId = some p
  expected : sub.receiver.tracker.expectedSequence = sub.receiver.tracker.expectedFor p
  keyed : OrderedMap.Keyed OwnedFrame.seq sub.receiver.recovery.bufferedOutOfOrder
  below : ∀ k, 0 < k → k < sub.receiver.tracker.expectedFor p → sub.Has k
  recorded : ∀ key ∈ sub.receiver.dedup.recentKeys, key.publisherId = p → 0 < key.sequence →
    sub.Has key.sequence

namespace Accounted

variable {p : UInt64} {sub next : Subscriber} {f : OwnedFrame}

theorem fresh (streamId p : UInt64) (cfg : RecoveryConfig) {mode : DeliveryMode}
    (hmode : mode = .reliableOrdered ∨ mode = .atLeastOnce) :
    Accounted p (Subscriber.new streamId mode cfg) := by
  refine ⟨hmode, Or.inl rfl, rfl, OrderedMap.Keyed.empty, ?_, ?_⟩
  · intro k hpos hlt
    have hexp : (Subscriber.new streamId mode cfg).receiver.tracker.expectedFor p = 1 := rfl
    rw [hexp, UInt64.lt_iff_toNat_lt, UInt64.toNat_one] at hlt
    rw [UInt64.lt_iff_toNat_lt, UInt64.toNat_zero] at hpos
    omega
  · intro key hkey
    simp [Subscriber.new, StreamReceiver.new, DuplicateFilter.new] at hkey

/-- Replay traffic: nothing accounted for is lost. -/
theorem recovery (h : Accounted p sub) {e : Event} (hstep : RecoveryStep sub e next) :
    Accounted p next := by
  suffices hgrow : OrderedMap.Keyed OwnedFrame.seq next.receiver.recovery.bufferedOutOfOrder ∧
      next.receiver.mode = sub.receiver.mode ∧ next.receiver.tracker = sub.receiver.tracker ∧
      next.receiver.dedup = sub.receiver.dedup ∧ ∀ k, sub.Has k → next.Has k by
    obtain ⟨hkeyed, hmode, htracker, hdedup, hhas⟩ := hgrow
    refine ⟨hmode ▸ h.mode, htracker ▸ h.live, htracker ▸ h.expected, hkeyed, ?_, ?_⟩
    · rw [htracker]
      exact fun k hpos hlt => hhas k (h.below k hpos hlt)
    · rw [hdedup]
      exact fun key hkey hpub hpos => hhas _ (h.recorded key hkey hpub hpos)
  cases hstep with
  | quiet notData notComplete buffered =>
    refine ⟨by rw [buffered]; exact h.keyed, rfl, rfl, rfl, fun k hk => ?_⟩
    refine hk.imp_right fun hbuf => ?_
    rw [buffered]
    exact hbuf
  | @pending id frame recovery notComplete buffered =>
    refine ⟨by rw [buffered]; exact h.keyed.insert _, rfl, rfl, rfl, fun k hk => ?_⟩
    refine hk.imp_right fun ⟨g, hg⟩ => ?_
    rw [buffered, OrderedMap.get_insert]
    by_cases hkf : k = frame.seq
    · exact ⟨frame, if_pos hkf⟩
    · exact ⟨g, by rw [if_neg hkf, hg]⟩
  | @released id frame recovery drained complete buffered drain =>
    refine ⟨by rw [buffered]; exact OrderedMap.Keyed.empty, rfl, rfl, rfl, fun k hk => ?_⟩
    left
    rw [List.map_append, List.mem_append]
    refine hk.imp_right fun ⟨g, hg⟩ => ?_
    rw [drain, RecoveryEngine.mem_released h.keyed]
    exact Or.inr ⟨g, hg⟩

/-- What a DATA frame of `p` does to the receiver whatever its status. -/
structure Observes (p : UInt64) (sub : Subscriber) (f : OwnedFrame) (next : Subscriber) : Prop where
  mode : next.receiver.mode = sub.receiver.mode
  active : next.receiver.tracker.activePublisherId = some p
  recorded : ∀ key ∈ next.receiver.dedup.recentKeys,
    key = sub.receiver.keyOf f ∨ key ∈ sub.receiver.dedup.recentKeys

/-- A DATA frame that is accounted for itself, and moves the expectation over nothing else. -/
theorem data_of_grow (h : Accounted p sub) (observes : Observes p sub f next)
    (keyed : OrderedMap.Keyed OwnedFrame.seq next.receiver.recovery.bufferedOutOfOrder)
    (grow : ∀ k, sub.Has k → next.Has k)
    (moved : ∀ k, k < next.receiver.tracker.expectedFor p →
      k < sub.receiver.tracker.expectedFor p ∨ k = f.seq ∨ next.Has k)
    (has : 0 < f.seq → next.Has f.seq) : Accounted p next := by
  refine ⟨by rw [observes.mode]; exact h.mode, Or.inr observes.active,
    (StreamSequenceTracker.expectedFor_active observes.active).symm, keyed, ?_, ?_⟩
  · intro k hpos hlt
    rcases moved k hlt with hold | rfl | hnew
    · exact grow k (h.below k hpos hold)
    · exact has hpos
    · exact hnew
  · intro key hkey hpub hpos
    rcases observes.recorded key hkey with rfl | hold
    · exact has hpos
    · exact grow _ (h.recorded key hold hpub hpos)

/-- A DATA frame that is neither forwarded nor buffered. -/
theorem data_of_still (h : Accounted p sub) (observes : Observes p sub f next)
    (forwarded : next.forwarded = sub.forwarded)
    (buffered : next.receiver.recovery.bufferedOutOfOrder = sub.receiver.recovery.bufferedOutOfOrder)
    (moved : ∀ k, k < next.receiver.tracker.expectedFor p →
      k < sub.receiver.tracker.expectedFor p ∨ k = f.seq)
    (has : 0 < f.seq → sub.Has f.seq) : Accounted p next := by
  have hhas : ∀ k, sub.Has k → next.Has k := by
    intro k hk
    rw [Has, forwarded, buffered]
    exact hk
  apply h.data_of_grow observes
  · rw [buffered]
    exact h.keyed
  · exact hhas
  · exact fun k hk => (moved k hk).imp_right Or.inl
  · exact fun hpos => hhas _ (has hpos)

/-- The frame in order, forwarded with what is drained behind it. -/
theorem data_of_inOrder {result : Delivery × StreamReceiver} {drained : List OwnedFrame}
    {left : OrderedMap UInt64 OwnedFrame} {n : Nat} (h : Accounted p sub) (observes : Observes p sub f next)
    (hp : f.header.publisherId = p) (expected : f.seq = sub.receiver.expectedOf f)
    (delivered : StreamReceiver.DeliveredInOrder (sub.receiver.observed f) f f.seq drained left result)
    (hd : Drained (f.seq + 1) sub.receiver.recovery.bufferedOutOfOrder drained left n)
    (forwarded : next.forwarded = sub.forwarded ++ result.1.frames) (receiver : next.receiver = result.2) :
    Accounted p next := by
  have hout : ∀ k, k ∈ next.forwarded.map OwnedFrame.seq ↔
      k ∈ sub.forwarded.map OwnedFrame.seq ∨ k = f.seq ∨ k ∈ drained.map OwnedFrame.seq := by
    intro k
    rw [forwarded, delivered.frames, Delivery.frames, List.map_append, List.mem_append, List.map_cons,
      List.mem_cons]
  have hsame : sub.receiver.expectedOf f = sub.receiver.tracker.expectedFor p := by
    rw [StreamReceiver.expectedOf, hp]
  refine h.data_of_grow observes ?_ ?_ ?_ fun _ => Or.inl ((hout f.seq).mpr (Or.inr (Or.inl rfl)))
  · rw [receiver, delivered.recovery]
    exact hd.keyed h.keyed
  · rintro k (hk | ⟨g, hg⟩)
    · exact Or.inl ((hout k).mpr (Or.inl hk))
    · by_cases hin : k ∈ drained.map OwnedFrame.seq
      · exact Or.inl ((hout k).mpr (Or.inr (Or.inr hin)))
      · refine Or.inr ⟨g, ?_⟩
        rw [receiver, delivered.recovery, hd.left_get, if_neg hin, hg]
  · intro k hk
    rw [StreamSequenceTracker.expectedFor_active observes.active, receiver, delivered.expected,
      StreamReceiver.observed_expected, if_pos expected, ← expected] at hk
    rw [← hsame, ← expected]
    by_cases hlt : k < f.seq
    · exact Or.inl hlt
    by_cases heq : k = f.seq
    · exact Or.inr (Or.inl heq)
    have hgt : f.seq < k := by
      have hne : k.toNat ≠ f.seq.toNat := fun hnat => heq (UInt64.toNat_inj.mp hnat)
      rw [UInt64.lt_iff_toNat_lt] at hlt ⊢
      omega
    have hin := StreamReceiver.mem_of_lt_advanceOver hd.seqs hgt hk
    exact Or.inr (Or.inr (Or.inl ((hout k).mpr (Or.inr (Or.inr hin)))))

/-- A frame behind a gap, which is buffered and moves nothing. -/
theorem data_of_buffered (h : Accounted p sub) (observes : Observes p sub f next)
    (forwarded : next.forwarded = sub.forwarded)
    (keyed : OrderedMap.Keyed OwnedFrame.seq next.receiver.recovery.bufferedOutOfOrder)
    (buffered : ∀ k : UInt64, next.receiver.recovery.bufferedOutOfOrder[k]? =
      if k = f.seq then some f else sub.receiver.recovery.bufferedOutOfOrder[k]?)
    (still : next.receiver.tracker.expectedFor p = sub.receiver.tracker.expectedFor p) : Accounted p next := by
  refine h.data_of_grow observes keyed ?_ ?_ fun _ => Or.inr ⟨f, by rw [buffered, if_pos rfl]⟩
  · rintro k (hk | ⟨g, hg⟩)
    · left
      rw [forwarded]
      exact hk
    · right
      rw [buffered]
      by_cases hkf : k = f.seq
      · exact ⟨f, if_pos hkf⟩
      · exact ⟨g, by rw [if_neg hkf, hg]⟩
  · intro k hk
    rw [still] at hk
    exact Or.inl hk

/-- A DATA frame in `ReliableOrdered` mode. -/
theorem data_reliable (h : Accounted p sub) (mode : sub.receiver.mode = .reliableOrdered) (now : Instant)
    (hp : f.header.publisherId = p) : Accounted p (sub.handleData now f) := by
  have hafter := StreamReceiver.observed_after mode now f
  have hcases := StreamReceiver.reliable_cases mode now f
  have hforwarded : (sub.handleData now f).forwarded = _ := handleData_forwarded
  have hreceiver : (sub.handleData now f).receiver = _ := handleData_receiver
  generalize sub.handleData now f = next at hforwarded hreceiver ⊢
  generalize sub.receiver.processDataFrame now f = result at hafter hcases hforwarded hreceiver
  have observes : Observes p sub f next := by
    refine ⟨by rw [hreceiver, hafter.mode, mode], by rw [hreceiver, hafter.active, hp], fun key hkey => ?_⟩
    rw [hreceiver, hafter.dedup] at hkey
    exact StreamReceiver.observed_recorded hkey
  have hsame : sub.receiver.expectedOf f = sub.receiver.tracker.expectedFor p := by
    rw [StreamReceiver.expectedOf, hp]
  have hexpected : (sub.receiver.observed f).tracker.expectedSequence =
      (sub.receiver.observed f).tracker.expectedFor p :=
    (StreamSequenceTracker.expectedFor_active (by simp [hp])).symm
  cases hcases with
  | suppressed dup =>
    apply h.data_of_still observes
    · rw [hforwarded, Delivery.frames, List.append_nil]
    · rw [hreceiver, StreamReceiver.observed_recovery]
    · intro k hk
      rw [hreceiver, ← hexpected, StreamReceiver.observed_expected, hsame] at hk
      split at hk
      · rename_i heq
        rw [heq]
        exact Counter.lt_or_eq_of_lt_succ hk
      · exact Or.inl hk
    · exact h.recorded _ dup hp
  | inOrder fresh live expected =>
    obtain ⟨drained, left, n, hspec, hd⟩ := StreamReceiver.deliverInOrder_drained h.keyed f
    exact h.data_of_inOrder observes hp expected hspec hd hforwarded hreceiver
  | reset fresh other started first =>
    rw [hp] at other
    exact (h.live.elim started other).elim
  | gap fresh unexpected ahead =>
    obtain ⟨hframes, -⟩ := StreamReceiver.bufferGap_spec (sub.receiver.observed f) now f
      (sub.receiver.expectedOf f) (f.seq - 1)
    apply h.data_of_buffered observes
    · rw [hforwarded, hframes, List.append_nil]
    · rw [hreceiver]
      exact StreamReceiver.bufferGap_keyed now h.keyed
    · intro k
      rw [hreceiver]
      exact StreamReceiver.bufferGap_get now k
    · rw [hreceiver, StreamReceiver.bufferGap_tracker, ← hexpected, StreamReceiver.observed_expected,
        if_neg unexpected, hsame]
  | old fresh same behind =>
    have hne : f.seq ≠ sub.receiver.expectedOf f := fun heq => UInt64.lt_irrefl _ (heq ▸ behind)
    apply h.data_of_still observes
    · rw [hforwarded, Delivery.frames, List.append_nil]
    · rw [hreceiver, StreamReceiver.observed_recovery]
    · intro k hk
      rw [hreceiver, ← hexpected, StreamReceiver.observed_expected, if_neg hne, hsame] at hk
      exact Or.inl hk
    · intro hpos
      rw [hsame] at behind
      exact h.below _ hpos behind

/-- A DATA frame in `AtLeastOnce` mode: the buffer is not used, and the expected frame is delivered. -/
theorem data_atLeastOnce (h : Accounted p sub) (mode : sub.receiver.mode = .atLeastOnce) (now : Instant)
    (hp : f.header.publisherId = p) : Accounted p (sub.handleData now f) := by
  have hdelivers := StreamReceiver.atLeastOnce_delivers mode now f
  have hforwarded : (sub.handleData now f).forwarded = _ := handleData_forwarded
  have hreceiver : (sub.handleData now f).receiver = _ := handleData_receiver
  generalize sub.handleData now f = next at hforwarded hreceiver ⊢
  have hafter := StreamReceiver.processAtLeastOnce_after
    { sub.receiver with
      tracker := (sub.receiver.tracker.observe f.header.publisherId f.seq).2 } now f f.seq
    (sub.receiver.tracker.observe f.header.publisherId f.seq).1
  rw [← StreamReceiver.processDataFrame_atLeastOnce mode, ← hreceiver] at hafter
  have hactive : next.receiver.tracker.activePublisherId = some p := by
    rw [hafter.tracker, StreamSequenceTracker.observe_active, hp]
  have hgrow : ∀ k, sub.Has k → next.Has k := by
    rintro k (hk | hk)
    · left
      rw [hforwarded, List.map_append, List.mem_append]
      exact Or.inl hk
    · right
      rw [hafter.buffered]
      exact hk
  refine ⟨by rw [hafter.mode]; exact h.mode, Or.inr hactive,
    (StreamSequenceTracker.expectedFor_active hactive).symm, by rw [hafter.buffered]; exact h.keyed, ?_, ?_⟩
  · intro k hpos hk
    rw [StreamSequenceTracker.expectedFor_active hactive, hafter.tracker,
      StreamSequenceTracker.observe_expected, hp] at hk
    split at hk
    · rename_i hexp
      rcases Counter.lt_or_eq_of_lt_succ hk with hlt | rfl
      · exact hgrow k (h.below k hpos hlt)
      · left
        have hin := hdelivers.mpr fun hgap => hgap.1 (by rw [hexp, hp])
        rw [hforwarded, List.map_append, List.mem_append, ← hexp]
        exact Or.inr (List.mem_map_of_mem hin)
    · exact hgrow k (h.below k hpos hk)
  · intro key hkey hpub hpos
    rw [hafter.dedup] at hkey
    exact hgrow _ (h.recorded key hkey hpub hpos)

/-- **Step**: every event keeps the account. -/
theorem step (h : Accounted p sub) {e : Event} (hp : e.OfPublisher p) : Accounted p (sub.step e) := by
  rcases sub.step_cases e with ⟨now, f, rfl⟩ | hstep
  · rcases h.mode with mode | mode
    · exact h.data_reliable mode now hp
    · exact h.data_atLeastOnce mode now hp
  · exact h.recovery hstep

/-- **Run**: the account holds after every run. -/
theorem run (h : Accounted p sub) {events : List Event} (hp : ∀ e ∈ events, e.OfPublisher p) :
    Accounted p (Runs.run Subscriber.step sub events) :=
  Runs.invariant (Accounted p) (fun _ _ hacc hpub => hacc.step hpub) h (Runs.each_of_forall hp)

end Accounted

end Subscriber

end Rtdp
