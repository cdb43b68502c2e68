import Rtdp.Transport.Subscriber
import Rtdp.Core.Delivery.ReliableOrdered
import Rtdp.Lib.Ascending

/-!
# Strict order of what the subscriber forwards

Frames reach the application on two paths. The DATA path is guarded by the
tracker and the duplicate filter; the replay path by neither, and it does not
move the tracker, although `advance_expected` is there for it. So a sequence
delivered by a replay is delivered again when its late original arrives, and a
replay may release what lies behind a later gap before it is filled.
`InSequence` is the check the subscriber lacks, the one `Latest` mode makes;
the forwarded frames ascend exactly when every event passes it.
-/

namespace Rtdp

namespace Subscriber

/-- Nothing was forwarded yet, or `s` is above the highest delivered sequence. -/
def Above (sub : Subscriber) (s : UInt64) : Prop :=
  sub.forwarded = [] ∨ sub.receiver.highestDeliveredSequence < s

/-- What the event releases lies above what was delivered before, and does not wrap. -/
def InSequence (sub : Subscriber) : Event → Prop
  | .data _ f => sub.receiver.Accepts f →
      sub.Above f.seq ∧ ¬ Wraps sub.receiver.recovery.bufferedOutOfOrder f.seq
  | .replayResponse id f => sub.receiver.recovery.completes id f.seq = true →
      sub.Above f.seq ∧
        ∀ (k : UInt64) g, sub.receiver.recovery.bufferedOutOfOrder[k]? = some g → sub.Above k
  | .timeouts _ _ => True
  | .replayUnavailable _ => True

/-- The forwarded frames ascend, and the receiver knows the last of them. -/
structure Ascends (p : UInt64) (sub : Subscriber) : Prop where
  mode : sub.receiver.mode = .reliableOrdered
  live : sub.receiver.tracker.activePublisherId = none ∨
    sub.receiver.tracker.activePublisherId = some p
  keyed : OrderedMap.Keyed OwnedFrame.seq sub.receiver.recovery.bufferedOutOfOrder
  sorted : (sub.forwarded.map OwnedFrame.seq).Pairwise (· < ·)
  highest : sub.receiver.highestDeliveredSequence = (sub.forwarded.map OwnedFrame.seq).getLastD 0

variable {p : UInt64} {sub : Subscriber}

namespace Ascends

/-- A batch keeps the order exactly when it ascends itself, above what was delivered. -/
theorem batch_iff (h : Ascends p sub) (batch : List OwnedFrame) :
    ((sub.forwarded ++ batch).map OwnedFrame.seq).Pairwise (· < ·) ↔
      (batch.map OwnedFrame.seq).Pairwise (· < ·) ∧ ∀ g ∈ batch, sub.Above g.seq := by
  rw [List.map_append, Ascending.append_iff (d := 0) h.sorted, ← h.highest]
  refine and_congr_right fun _ => ?_
  constructor
  · rintro (hnil | hlast) g hg
    · exact Or.inl (List.map_eq_nil_iff.mp hnil)
    · exact Or.inr (hlast g.seq (List.mem_map_of_mem hg))
  · intro habove
    by_cases hnil : sub.forwarded = []
    · exact Or.inl (by rw [hnil, List.map_nil])
    · refine Or.inr fun s hs => ?_
      obtain ⟨g, hg, rfl⟩ := List.mem_map.mp hs
      exact (habove g hg).resolve_left hnil

/-- An event that forwards nothing, and leaves the buffer keyed. -/
theorem quiet (h : Ascends p sub) {next : Subscriber} (mode : next.receiver.mode = .reliableOrdered)
    (live : next.receiver.tracker.activePublisherId = none ∨
      next.receiver.tracker.activePublisherId = some p)
    (keyed : OrderedMap.Keyed OwnedFrame.seq next.receiver.recovery.bufferedOutOfOrder)
    (forwarded : next.forwarded = sub.forwarded)
    (highest : next.receiver.highestDeliveredSequence = sub.receiver.highestDeliveredSequence) :
    Ascends p next :=
  ⟨mode, live, keyed, by rw [forwarded]; exact h.sorted, by rw [highest, forwarded]; exact h.highest⟩

/-- A frame that is not accepted is not forwarded. -/
theorem data_unaccepted (h : Ascends p sub) (now : Instant) {f : OwnedFrame}
    (hp : f.header.publisherId = p) (unaccepted : ¬ sub.receiver.Accepts f) :
    Ascends p (sub.handleData now f) := by
  have hafter := StreamReceiver.observed_after h.mode now f
  have hcases := StreamReceiver.reliable_cases h.mode now f
  have hforwarded : (sub.handleData now f).forwarded = _ := handleData_forwarded
  have hreceiver : (sub.handleData now f).receiver = _ := handleData_receiver
  generalize sub.receiver.processDataFrame now f = result at hafter hcases hforwarded hreceiver
  have hlive : result.2.tracker.activePublisherId = some p := by rw [hafter.active, hp]
  suffices hquiet : result.1.frames = [] ∧
      OrderedMap.Keyed OwnedFrame.seq result.2.recovery.bufferedOutOfOrder ∧
      result.2.highestDeliveredSequence = sub.receiver.highestDeliveredSequence by
    obtain ⟨hframes, hkeyed, hhighest⟩ := hquiet
    rw [hframes, List.append_nil] at hforwarded
    apply h.quiet ?_ ?_ ?_ hforwarded <;> rw [hreceiver]
    · exact hhighest
    · exact hafter.mode
    · exact Or.inr hlive
    · exact hkeyed
  cases hcases with
  | suppressed dup => exact ⟨rfl, h.keyed, rfl⟩
  | inOrder fresh live expected => exact absurd ⟨fresh, expected⟩ unaccepted
  | reset fresh other started first =>
    rw [hp] at other
    exact (h.live.elim started other).elim
  | gap fresh unexpected ahead =>
    obtain ⟨hframes, hrx⟩ := StreamReceiver.bufferGap_spec (sub.receiver.observed f) now f
      (sub.receiver.expectedOf f) (f.seq - 1)
    exact ⟨hframes, StreamReceiver.bufferGap_keyed now h.keyed, by rw [hrx]; rfl⟩
  | old fresh same behind => exact ⟨rfl, h.keyed, rfl⟩

/-- A DATA frame of the publisher. -/
theorem data (h : Ascends p sub) (now : Instant) {f : OwnedFrame} (hp : f.header.publisherId = p) :
    (sub.InSequence (.data now f) → Ascends p (sub.handleData now f)) ∧
      (((sub.handleData now f).forwarded.map OwnedFrame.seq).Pairwise (· < ·) →
        sub.InSequence (.data now f)) := by
  by_cases accepts : sub.receiver.Accepts f
  swap
  · exact ⟨fun _ => h.data_unaccepted now hp accepts, fun _ hacc => absurd hacc accepts⟩
  have hresult := StreamReceiver.processDataFrame_inOrder h.mode now (hp ▸ h.live) accepts
  obtain ⟨drained, left, n, hspec, hd⟩ := StreamReceiver.deliverInOrder_drained h.keyed f
  rw [← hresult] at hspec
  have hforwarded : (sub.handleData now f).forwarded = sub.forwarded ++ (f :: drained) := by
    rw [handleData_forwarded, hspec.frames]
    rfl
  have hbatch := h.batch_iff (f :: drained)
  rw [← hforwarded] at hbatch
  constructor
  · intro hin
    obtain ⟨habove, hwraps⟩ := hin accepts
    obtain ⟨hsorted, hbehind⟩ := hd.ascending hwraps
    have habove' : ∀ g ∈ f :: drained, sub.Above g.seq := by
      refine List.forall_mem_cons.mpr ⟨habove, fun g hg => ?_⟩
      exact habove.imp_right fun hlt => UInt64.lt_trans hlt (hbehind g hg)
    have hsorted' : ((f :: drained).map OwnedFrame.seq).Pairwise (· < ·) := by
      rw [List.map_cons, List.pairwise_cons]
      refine ⟨fun s hs => ?_, hsorted⟩
      obtain ⟨g, hg, rfl⟩ := List.mem_map.mp hs
      exact hbehind g hg
    refine ⟨?_, ?_, ?_, hbatch.mpr ⟨hsorted', habove'⟩, ?_⟩
    · rw [handleData_receiver, hspec.mode]
      exact h.mode
    · rw [handleData_receiver, hspec.active, StreamReceiver.observed_active, hp]
      exact Or.inr rfl
    · rw [handleData_receiver, hspec.recovery]
      exact hd.keyed h.keyed
    · rw [handleData_receiver, hspec.highest, hforwarded, List.map_append, Ascending.getLastD_append,
        List.map_cons, List.getLastD_cons]
  · intro hpairwise _
    obtain ⟨hsorted, habove⟩ := hbatch.mp hpairwise
    refine ⟨habove f (by simp), fun hwraps => ?_⟩
    rw [List.map_cons, List.pairwise_cons] at hsorted
    exact absurd (hsorted.1 0 (hd.zero_mem hwraps)) UInt64.not_lt_zero

/-- An event other than DATA. -/
theorem recovery (h : Ascends p sub) {e : Event} {next : Subscriber} (hstep : RecoveryStep sub e next) :
    (sub.InSequence e → Ascends p next) ∧
      ((next.forwarded.map OwnedFrame.seq).Pairwise (· < ·) → sub.InSequence e) := by
  cases hstep with
  | quiet notData notComplete buffered =>
    refine ⟨fun _ => h.quiet h.mode h.live (by rw [buffered]; exact h.keyed) rfl rfl, fun _ => ?_⟩
    cases e with
    | timeouts now order => trivial
    | data now f => exact absurd rfl (notData now f)
    | replayResponse id f =>
      intro hcomplete
      rw [notComplete id f rfl] at hcomplete
      cases hcomplete
    | replayUnavailable unavail => trivial
  | pending notComplete buffered =>
    refine ⟨fun _ => h.quiet h.mode h.live (by rw [buffered]; exact h.keyed.insert _) rfl rfl, ?_⟩
    intro _ hcomplete
    rw [notComplete] at hcomplete
    cases hcomplete
  | @released id f recovery drained complete buffered drain =>
    have hsorted := RecoveryEngine.released_sorted h.keyed f
    rw [← drain] at hsorted
    have hin : sub.InSequence (.replayResponse id f) ↔ ∀ g ∈ drained, sub.Above g.seq := by
      have hmem : ∀ k, k ∈ drained.map OwnedFrame.seq ↔ _ := fun k =>
        drain ▸ RecoveryEngine.mem_released h.keyed f (k := k)
      rw [← List.forall_mem_map (f := OwnedFrame.seq) (P := sub.Above)]
      constructor
      · intro hcomplete k hk
        obtain ⟨hfirst, hbuffered⟩ := hcomplete complete
        rcases (hmem k).mp hk with rfl | ⟨g, hg⟩
        · exact hfirst
        · exact hbuffered k g hg
      · intro habove _
        exact ⟨habove _ ((hmem _).mpr (Or.inl rfl)), fun k g hg => habove _ ((hmem _).mpr (Or.inr ⟨g, hg⟩))⟩
    rw [hin]
    have hbatch := h.batch_iff drained
    refine ⟨fun habove => ⟨h.mode, h.live, ?_, hbatch.mpr ⟨hsorted, habove⟩, ?_⟩, ?_⟩
    · rw [buffered]
      exact OrderedMap.Keyed.empty
    · rw [List.map_append, Ascending.getLastD_append, ← h.highest]
      apply Ascending.foldl_max hsorted
      intro s hs
      obtain ⟨g, hg, rfl⟩ := List.mem_map.mp hs
      rcases habove g hg with hnil | hlt
      · rw [h.highest, hnil]
        exact UInt64.zero_le
      · exact UInt64.le_of_lt hlt
    · intro hpairwise
      exact (hbatch.mp hpairwise).2

theorem fresh (streamId p : UInt64) (cfg : RecoveryConfig) :
    Ascends p (Subscriber.new streamId .reliableOrdered cfg) :=
  ⟨rfl, Or.inl rfl, OrderedMap.Keyed.empty, List.Pairwise.nil, rfl⟩

/-- **Step**: an event keeps the order exactly when it is in sequence. -/
theorem step (h : Ascends p sub) {e : Event} (hp : e.OfPublisher p) :
    (sub.InSequence e → Ascends p (sub.step e)) ∧
      (((sub.step e).forwarded.map OwnedFrame.seq).Pairwise (· < ·) → sub.InSequence e) := by
  rcases sub.step_cases e with ⟨now, f, rfl⟩ | hstep
  · exact h.data now hp
  · exact h.recovery hstep

end Ascends

end Subscriber

/-- **Strict order**: in `ReliableOrdered` mode with one publisher, the forwarded sequences are
strictly ascending exactly in the runs all of whose events are in sequence. -/
theorem subscriber_strict_order (streamId p : UInt64) (cfg : RecoveryConfig) (events : List Event)
    (hp : ∀ e ∈ events, e.OfPublisher p) :
    ((Runs.run Subscriber.step (Subscriber.new streamId .reliableOrdered cfg) events).forwarded.map
        OwnedFrame.seq).Pairwise (· < ·) ↔
      Runs.Each Subscriber.step Subscriber.InSequence (Subscriber.new streamId .reliableOrdered cfg)
        events := by
  apply Runs.iff_each (fun _ => True) (Subscriber.Ascends p) (fun _ _ _ _ => trivial) ?_
    (fun sub h => h.sorted) ?_ ?_ trivial (Subscriber.Ascends.fresh streamId p cfg)
    (Runs.each_of_forall hp)
  · intro sub e _ _ h
    obtain ⟨batch, hbatch⟩ := sub.forwarded_grows e
    rw [hbatch, List.map_append] at h
    exact (List.pairwise_append.mp h).1
  · intro sub e _ h hp
    exact ⟨(h.step hp).2, fun hin => ((h.step hp).1 hin).sorted⟩
  · intro sub e _ h hp hin
    exact (h.step hp).1 hin

/-- A gap filled by its replay, with nothing late. -/
theorem subscriber_strict_order_replayed :
    Runs.Each Subscriber.step Subscriber.InSequence
      (Subscriber.new 1 .reliableOrdered RecoveryConfig.default)
      (dataEvents 9 [1, 3] ++ [replayOf 1 9 2]) :=
  (subscriber_strict_order 1 9 RecoveryConfig.default _ (by decide)).mp (by decide +kernel)

/-- The original of a replayed frame arrives late: it is forwarded a second time. -/
theorem subscriber_late_original :
    ¬ ((Runs.run Subscriber.step (Subscriber.new 1 .reliableOrdered RecoveryConfig.default)
      (dataEvents 9 [1, 3] ++ [replayOf 1 9 2] ++ dataEvents 9 [2])).forwarded.map
        OwnedFrame.seq).Pairwise (· < ·) := by
  decide +kernel

end Rtdp
