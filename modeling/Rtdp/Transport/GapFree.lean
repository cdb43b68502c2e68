import Rtdp.Transport.Accounted
import Rtdp.Lib.Grounded

/-!
# Gap freedom of what the subscriber forwards

A completed replay drains the whole out-of-order buffer, not the contiguous
stretch that it closes, so a frame behind another open gap goes out with it. On
the DATA path the tracker can pass a frame that is still buffered, when its
duplicate is suppressed at the expected position. `Closes` names the two
situations; the forwarded frames are free of gaps exactly when neither occurs.
-/

namespace Rtdp

/-- Every sequence comes after all the positive ones below it. -/
def GapFree (seqs : List UInt64) : Prop := Grounded (fun k s => 0 < k ∧ k < s) seqs

namespace Subscriber

/-- The event releases nothing that lies behind a gap. -/
def Closes (sub : Subscriber) : Event → Prop
  | .data _ f => sub.receiver.Accepts f →
      ∀ (k : UInt64) g, sub.receiver.recovery.bufferedOutOfOrder[k]? = some g → 0 < k → k < f.seq →
        k ∈ sub.forwarded.map OwnedFrame.seq
  | .replayResponse id f => sub.receiver.recovery.completes id f.seq = true →
      ∀ b : UInt64, b = f.seq ∨ (∃ g, sub.receiver.recovery.bufferedOutOfOrder[b]? = some g) →
        ∀ k, 0 < k → k < b → k = f.seq ∨ sub.Has k
  | .timeouts _ _ => True
  | .replayUnavailable _ => True

variable {p : UInt64} {sub : Subscriber}

/-- The stretch a DATA frame releases. -/
theorem closes_data (h : Accounted p sub) (mode : sub.receiver.mode = .reliableOrdered)
    (gapFree : GapFree (sub.forwarded.map OwnedFrame.seq)) (now : Instant) {f : OwnedFrame}
    (hp : f.header.publisherId = p) :
    GapFree ((sub.handleData now f).forwarded.map OwnedFrame.seq) ↔ sub.Closes (.data now f) := by
  by_cases accepts : sub.receiver.Accepts f
  swap
  · rw [handleData_forwarded, StreamReceiver.frames_unaccepted mode now (hp ▸ h.live) accepts,
      List.append_nil]
    exact iff_of_true gapFree fun hacc => absurd hacc accepts
  have hresult := StreamReceiver.processDataFrame_inOrder mode now (hp ▸ h.live) accepts
  obtain ⟨drained, left, n, hspec, hd⟩ := StreamReceiver.deliverInOrder_drained h.keyed f
  rw [handleData_forwarded, hresult, hspec.frames, Delivery.frames, List.map_append, List.map_cons, GapFree,
    Grounded.append_iff]
  constructor
  · rintro ⟨-, hbatch⟩ _ k g hg hpos hlt
    exact (hbatch [] f.seq _ rfl k ⟨hpos, hlt⟩).resolve_right (by simp)
  · intro hcloses
    have hbelow : ∀ k, 0 < k → k < f.seq → k ∈ sub.forwarded.map OwnedFrame.seq := by
      intro k hpos hlt
      have hexp := accepts.2
      rw [StreamReceiver.expectedOf, hp] at hexp
      rcases h.below k hpos (hexp ▸ hlt) with hmem | ⟨g, hg⟩
      · exact hmem
      · exact hcloses accepts k g hg hpos hlt
    refine ⟨gapFree, fun before a after heq k hk => ?_⟩
    by_cases hlt : k < f.seq
    · exact Or.inl (hbelow k hk.1 hlt)
    right
    cases before with
    | nil =>
      obtain ⟨rfl, -⟩ := List.cons_eq_cons.mp heq
      exact absurd hk.2 hlt
    | cons b before =>
      obtain ⟨rfl, hdrained⟩ := List.cons_eq_cons.mp heq
      by_cases hkf : k = f.seq
      · rw [hkf]
        exact List.mem_cons_self
      have hgt : f.seq < k := by
        have hne : k.toNat ≠ f.seq.toNat := fun hnat => hkf (UInt64.toNat_inj.mp hnat)
        rw [UInt64.lt_iff_toNat_lt] at hlt ⊢
        omega
      -- behind the frame the drained stretch is consecutive
      rw [hd.seqs] at hdrained
      apply List.mem_cons_of_mem
      refine consecutive_before hdrained ?_ hk.2
      rw [UInt64.le_iff_toNat_le, Counter.toNat_succ_of_lt hgt]
      exact UInt64.lt_iff_toNat_lt.mp hgt

/-- What a completed replay releases. -/
theorem closes_recovery (h : Accounted p sub) (gapFree : GapFree (sub.forwarded.map OwnedFrame.seq))
    {e : Event} {next : Subscriber} (hstep : RecoveryStep sub e next) :
    GapFree (next.forwarded.map OwnedFrame.seq) ↔ sub.Closes e := by
  cases hstep with
  | quiet notData notComplete buffered =>
    refine iff_of_true gapFree ?_
    cases e with
    | timeouts now order => trivial
    | data now f => exact absurd rfl (notData now f)
    | replayResponse id f =>
      intro hcomplete
      rw [notComplete id f rfl] at hcomplete
      cases hcomplete
    | replayUnavailable unavail => trivial
  | pending notComplete buffered =>
    refine iff_of_true gapFree fun hcomplete => ?_
    rw [notComplete] at hcomplete
    cases hcomplete
  | @released id f recovery drained complete buffered drain =>
    have hsorted := RecoveryEngine.released_sorted h.keyed f
    have hmem : ∀ k, k ∈ drained.map OwnedFrame.seq ↔ _ := fun k =>
      drain ▸ RecoveryEngine.mem_released h.keyed f (k := k)
    rw [← drain] at hsorted
    have horder : ∀ a b : UInt64, 0 < b ∧ b < a → a ≠ b ∧ ¬ a < b := by
      rintro a b ⟨-, hlt⟩
      refine ⟨fun heq => UInt64.lt_irrefl _ (heq ▸ hlt), fun hgt => ?_⟩
      exact UInt64.lt_irrefl _ (UInt64.lt_trans hlt hgt)
    rw [List.map_append, GapFree, Grounded.append_sorted_iff hsorted horder]
    constructor
    · rintro ⟨-, hall⟩ _ b hb k hpos hlt
      rcases hall b ((hmem b).mpr hb) k ⟨hpos, hlt⟩ with hk | hk
      · exact Or.inr (Or.inl hk)
      · exact ((hmem k).mp hk).imp_right Or.inr
    · intro hcloses
      refine ⟨gapFree, fun b hb k hk => ?_⟩
      rcases hcloses complete b ((hmem b).mp hb) k hk.1 hk.2 with heq | hk | hbuf
      · exact Or.inr ((hmem k).mpr (Or.inl heq))
      · exact Or.inl hk
      · exact Or.inr ((hmem k).mpr (Or.inr hbuf))

/-- The invariant of a run that is free of gaps so far. -/
structure Gapless (p : UInt64) (sub : Subscriber) : Prop extends Accounted p sub where
  reliable : sub.receiver.mode = .reliableOrdered
  gapFree : GapFree (sub.forwarded.map OwnedFrame.seq)

/-- **Step**: an event keeps the forwarded frames free of gaps exactly when it releases nothing
behind one. -/
theorem Gapless.step_iff (h : Gapless p sub) {e : Event} (hp : e.OfPublisher p) :
    GapFree ((sub.step e).forwarded.map OwnedFrame.seq) ↔ sub.Closes e := by
  rcases sub.step_cases e with ⟨now, f, rfl⟩ | hstep
  · exact closes_data h.toAccounted h.reliable h.gapFree now hp
  · exact closes_recovery h.toAccounted h.gapFree hstep

theorem Gapless.step (h : Gapless p sub) {e : Event} (hp : e.OfPublisher p) (closes : sub.Closes e) :
    Gapless p (sub.step e) := by
  refine ⟨h.toAccounted.step hp, ?_, (h.step_iff hp).mpr closes⟩
  rcases sub.step_cases e with ⟨now, f, rfl⟩ | hstep
  · rw [Subscriber.step, handleData_receiver]
    exact (StreamReceiver.observed_after h.reliable now f).mode
  · generalize sub.step e = next at hstep
    cases hstep <;> exact h.reliable

end Subscriber

/-- **Gap freedom**: in `ReliableOrdered` mode with one publisher, no sequence is forwarded before
every positive one below it exactly in the runs all of whose events release nothing behind a gap. -/
theorem subscriber_gap_free (streamId p : UInt64) (cfg : RecoveryConfig) (events : List Event)
    (hp : ∀ e ∈ events, e.OfPublisher p) :
    GapFree ((Runs.run Subscriber.step (Subscriber.new streamId .reliableOrdered cfg) events).forwarded.map
        OwnedFrame.seq) ↔
      Runs.Each Subscriber.step Subscriber.Closes (Subscriber.new streamId .reliableOrdered cfg)
        events := by
  have hinit : Subscriber.Gapless p (Subscriber.new streamId .reliableOrdered cfg) :=
    ⟨Subscriber.Accounted.fresh streamId p cfg (Or.inl rfl), rfl, Grounded.nil⟩
  apply Runs.iff_each (fun _ => True) (Subscriber.Gapless p) (fun _ _ _ _ => trivial) ?_
    (fun sub h => h.gapFree) ?_ ?_ trivial hinit (Runs.each_of_forall hp)
  · intro sub e _ _ h
    obtain ⟨batch, hbatch⟩ := sub.forwarded_grows e
    rw [hbatch, List.map_append] at h
    exact h.prefix_of
  · intro sub e _ h hp
    exact h.step_iff hp
  · intro sub e _ h hp hcloses
    exact h.step hp hcloses

theorem gapFree_consecutive (n : ℕ) : GapFree (consecutive 1 n) := by
  intro before a after heq k hk
  refine consecutive_before heq ?_ hk.2
  rw [UInt64.le_iff_toNat_le]
  exact UInt64.lt_iff_toNat_lt.mp hk.1

/-- One gap, closed by its replay. -/
theorem subscriber_gap_free_replayed :
    Runs.Each Subscriber.step Subscriber.Closes
      (Subscriber.new 1 .reliableOrdered RecoveryConfig.default)
      (dataEvents 9 [1, 3] ++ [replayOf 1 9 2]) := by
  apply (subscriber_gap_free 1 9 RecoveryConfig.default _ (by decide)).mp
  have hout : (Runs.run Subscriber.step (Subscriber.new 1 .reliableOrdered RecoveryConfig.default)
      (dataEvents 9 [1, 3] ++ [replayOf 1 9 2])).forwarded.map OwnedFrame.seq = consecutive 1 3 := by
    decide +kernel
  rw [hout]
  exact gapFree_consecutive 3

/-- Two gaps: the replay of frame 2 releases frame 5, with frame 4 still missing. -/
theorem subscriber_releases_behind_gap :
    ¬ GapFree ((Runs.run Subscriber.step (Subscriber.new 1 .reliableOrdered RecoveryConfig.default)
      (dataEvents 9 [1, 3, 5] ++ [replayOf 1 9 2])).forwarded.map OwnedFrame.seq) := by
  have hout : (Runs.run Subscriber.step (Subscriber.new 1 .reliableOrdered RecoveryConfig.default)
      (dataEvents 9 [1, 3, 5] ++ [replayOf 1 9 2])).forwarded.map OwnedFrame.seq = [1, 2, 3] ++ 5 :: [] := by
    decide +kernel
  rw [hout]
  intro h
  exact absurd (h [1, 2, 3] 5 [] rfl 4 (by decide)) (by decide)

end Rtdp
