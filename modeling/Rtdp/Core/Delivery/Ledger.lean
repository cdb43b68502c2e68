import Rtdp.Core.Delivery.Stall

/-!
# The ledger of a receiver fed by one publisher

What a `ReliableOrdered` receiver has delivered, what it has buffered and what
it has asked for, after any run of DATA frames of one publisher in which no
drain wraps. Everything below the expected sequence has been delivered, nothing
from there on; every request starts at or below it, and the frame that opened
the request has arrived.
-/

namespace Rtdp

/-- The frame opens a gap, and the request for it is accepted. -/
def OpensRequest (rx : StreamReceiver) (f : OwnedFrame) : Prop :=
  rx.keyOf f ∉ rx.dedup.recentKeys ∧ f.seq ≠ rx.expectedOf f ∧
    (rx.tracker.activePublisherId = some f.header.publisherId → rx.expectedOf f < f.seq) ∧
    ¬ rx.recovery.Refuses (rx.expectedOf f) (f.seq - 1)

instance (rx : StreamReceiver) (f : OwnedFrame) : Decidable (OpensRequest rx f) :=
  inferInstanceAs (Decidable (_ ∧ _))

/-- A call hands out a request exactly when its frame opens one. -/
theorem StreamReceiver.request_iff {rx : StreamReceiver} (mode : rx.mode = .reliableOrdered)
    (now : Instant) (f : OwnedFrame) {r : ReplayRequestPayload} :
    (rx.processDataFrame now f).1.request = some r ↔
      OpensRequest rx f ∧ r = ⟨rx.recovery.nextRequestId, rx.expectedOf f, f.seq - 1⟩ := by
  have hcases := reliable_cases mode now f
  generalize rx.processDataFrame now f = result at hcases ⊢
  -- a call that asks for nothing is one whose frame opens no request
  have hnothing : ∀ outcome : Delivery, outcome.request = none → ¬ OpensRequest rx f →
      (outcome.request = some r ↔
        OpensRequest rx f ∧ r = ⟨rx.recovery.nextRequestId, rx.expectedOf f, f.seq - 1⟩) := by
    intro outcome hnone hno
    rw [hnone]
    exact iff_of_false (by simp) fun h => hno h.1
  cases hcases with
  | suppressed dup =>
    apply hnothing _ rfl
    exact fun h => h.1 dup
  | inOrder fresh live expected =>
    rw [(deliverInOrder_spec (rx.observed f) f f.seq).frames]
    apply hnothing _ rfl
    exact fun h => h.2.1 expected
  | reset fresh other started first =>
    apply hnothing _ rfl
    intro h
    apply h.2.1
    rw [expectedOf, StreamSequenceTracker.expectedFor_inactive other]
    exact first
  | gap fresh unexpected ahead =>
    by_cases refused : rx.recovery.Refuses (rx.expectedOf f) (f.seq - 1)
    · obtain ⟨e, he⟩ := bufferGap_refused (rx.observed f) now f refused
      rw [he]
      apply hnothing _ rfl
      exact fun h => h.2.2.2 refused
    · rw [bufferGap_accepted (rx.observed f) now f refused]
      have hopens : OpensRequest rx f := ⟨fresh, unexpected, ahead, refused⟩
      simp [Delivery.request, hopens, eq_comm]
  | old fresh same behind =>
    apply hnothing _ rfl
    exact fun h => UInt64.lt_irrefl _ (UInt64.lt_trans behind (h.2.2.1 same))

/-- What has been delivered, buffered and asked for. -/
structure Ledger (p : UInt64) (delivered : List OwnedFrame) (rx : StreamReceiver) : Prop
    extends Tidy p rx where
  delivered : ∀ k, (∃ g ∈ delivered, g.seq = k) ↔ 0 < k ∧ k < rx.tracker.expectedFor p
  spans : ∀ (id : UInt64) req, rx.recovery.outstandingRequests[id]? = some req →
    0 < req.fromSequence ∧ req.fromSequence ≤ rx.tracker.expectedFor p ∧
      req.fromSequence ≤ req.toSequence
  opener : ∀ (id : UInt64) req, rx.recovery.outstandingRequests[id]? = some req →
    req.toSequence + 1 < rx.tracker.expectedFor p ∨
      ∃ g, rx.recovery.bufferedOutOfOrder[req.toSequence + 1]? = some g
  state : rx.recovery.state = .live ∨
    ∃ (id : UInt64) (req : ActiveReplayRequest), rx.recovery.outstandingRequests[id]? = some req

namespace Ledger

variable {p : UInt64} {delivered : List OwnedFrame} {rx : StreamReceiver} {f : OwnedFrame}

theorem fresh (cfg : RecoveryConfig) (streamId p : UInt64) :
    Ledger p [] (StreamReceiver.new streamId .reliableOrdered cfg) := by
  refine ⟨Tidy.fresh cfg streamId p, ?_, ?_, ?_, Or.inl rfl⟩
  · intro k
    have hexp : (StreamReceiver.new streamId .reliableOrdered cfg).tracker.expectedFor p = 1 := rfl
    simp only [List.not_mem_nil, false_and, exists_false, false_iff, not_and, hexp]
    intro hpos hlt
    rw [UInt64.lt_iff_toNat_lt] at hpos hlt
    rw [UInt64.toNat_one] at hlt
    omega
  · intro id req h
    simp at h
  · intro id req h
    simp at h

/-- A gap asks, if at all, from the expected sequence to the one before the frame. -/
theorem gap (h : Ledger p delivered rx) (now : Instant) (hp : f.header.publisherId = p)
    (tidy : Tidy p ((rx.observed f).bufferGap now f (rx.expectedOf f) (f.seq - 1)).2)
    (hne : f.seq ≠ rx.expectedOf f) (ahead : f.seq = 0 ∨ rx.tracker.expectedFor p < f.seq) :
    Ledger p delivered ((rx.observed f).bufferGap now f (rx.expectedOf f) (f.seq - 1)).2 := by
  have hE : rx.expectedOf f = rx.tracker.expectedFor p := by rw [StreamReceiver.expectedOf, hp]
  have hexp : ((rx.observed f).bufferGap now f (rx.expectedOf f) (f.seq - 1)).2.tracker.expectedFor p =
      rx.tracker.expectedFor p := by
    rw [StreamReceiver.bufferGap_tracker, ← hE, ← hp]
    exact StreamReceiver.observed_expectedFor hne
  have hsucc : f.seq - 1 + 1 = f.seq := UInt64.sub_add_cancel _ _
  have hspan := StreamReceiver.gap_span (hE ▸ ahead : f.seq = 0 ∨ rx.expectedOf f < f.seq)
  refine ⟨tidy, ?_, ?_, ?_, ?_⟩
  · rw [hexp]
    exact h.delivered
  · intro id req hget
    rw [hexp]
    rcases StreamReceiver.bufferGap_outstanding now hget with hold | ⟨hfrom, hto⟩
    · exact h.spans id req hold
    · rw [hfrom, hto]
      exact ⟨hE ▸ h.pos, hE ▸ UInt64.le_rfl, hspan⟩
  · intro id req hget
    rw [hexp]
    simp only [StreamReceiver.bufferGap_get]
    rcases StreamReceiver.bufferGap_outstanding now hget with hold | ⟨-, hto⟩
    · refine (h.opener id req hold).imp_right ?_
      rintro ⟨g, hg⟩
      split
      · exact ⟨f, rfl⟩
      · exact ⟨g, hg⟩
    · rw [hto, hsucc, if_pos rfl]
      exact Or.inr ⟨f, rfl⟩
  · by_cases refused : rx.recovery.Refuses (rx.expectedOf f) (f.seq - 1)
    · obtain ⟨e, he⟩ := StreamReceiver.bufferGap_refused (rx.observed f) now f refused
      rw [he]
      exact h.state
    · rw [StreamReceiver.bufferGap_accepted (rx.observed f) now f refused]
      exact Or.inr ⟨rx.recovery.nextRequestId, _, by simp; rfl⟩

theorem inOrder (h : Ledger p delivered rx) {drained : List OwnedFrame}
    {left : OrderedMap UInt64 OwnedFrame} {n : ℕ} {result : Delivery × StreamReceiver}
    (tidy : Tidy p result.2) (hp : f.header.publisherId = p) (hexp : f.seq = rx.expectedOf f)
    (rel : StreamReceiver.Released rx f drained left n result) :
    Ledger p (delivered ++ result.1.frames) result.2 := by
  have hE : rx.tracker.expectedFor p = f.seq := by rw [hexp, StreamReceiver.expectedOf, hp]
  have hE' : (result.2.tracker.expectedFor p).toNat = f.seq.toNat + 1 + n := by
    rw [← tidy.expected]
    exact rel.next
  have hpos := UInt64.lt_iff_toNat_lt.mp h.pos
  rw [hE] at hpos
  have hframes : result.1.frames = f :: drained := by rw [rel.frames]; rfl
  have hgrow : rx.tracker.expectedFor p < result.2.tracker.expectedFor p := by
    rw [UInt64.lt_iff_toNat_lt, hE', hE]
    omega
  have hdrained : ∀ k : UInt64, (∃ g ∈ drained, g.seq = k) ↔
      f.seq.toNat + 1 ≤ k.toNat ∧ k.toNat < f.seq.toNat + 1 + n := by
    intro k
    rw [← List.mem_range'_1, ← rel.seqs, List.mem_map]
    simp only [UInt64.toNat_inj]
  refine ⟨tidy, ?_, ?_, ?_, ?_⟩
  · intro k
    have hold := h.delivered k
    rw [hE] at hold
    have hmem : (∃ g ∈ delivered ++ result.1.frames, g.seq = k) ↔
        (∃ g ∈ delivered, g.seq = k) ∨ f.seq = k ∨ ∃ g ∈ drained, g.seq = k := by
      rw [hframes]
      simp only [List.mem_append, List.mem_cons, or_and_right, exists_or, exists_eq_left]
    rw [UInt64.toNat_zero] at hpos
    rw [hmem, hold, hdrained, ← UInt64.toNat_inj]
    simp only [UInt64.lt_iff_toNat_lt, hE', UInt64.toNat_zero]
    omega
  · rw [rel.recovery]
    intro id req hget
    obtain ⟨hfrom, hle, hspan⟩ := h.spans id req hget
    exact ⟨hfrom, UInt64.le_trans hle (UInt64.le_of_lt hgrow), hspan⟩
  · rw [rel.recovery]
    intro id req hget
    rcases h.opener id req hget with hlt | ⟨g, hg⟩
    · exact Or.inl (UInt64.lt_trans hlt hgrow)
    · dsimp only
      rw [rel.left_get]
      split
      · rename_i hin
        exact Or.inl (by rw [UInt64.lt_iff_toNat_lt, hE']; exact hin.2)
      · exact Or.inr ⟨g, hg⟩
  · rw [rel.recovery]
    exact h.state

/-- **Step**: a frame of `p` keeps the ledger, given that the stretch behind it does not wrap. -/
theorem step (h : Ledger p delivered rx) (now : Instant) (hp : f.header.publisherId = p)
    (unwrapped : Unwrapped rx f) :
    Ledger p (delivered ++ (rx.processDataFrame now f).1.frames) (rx.processDataFrame now f).2 := by
  obtain ⟨htidy, houtcome⟩ := h.toTidy.step now hp unwrapped
  generalize rx.processDataFrame now f = result at htidy houtcome ⊢
  cases houtcome with
  | idle unexpected =>
    have hexp : (rx.observed f).tracker.expectedFor p = rx.tracker.expectedFor p := by
      rw [← hp]
      exact StreamReceiver.observed_expectedFor unexpected
    rw [show Delivery.frames (.ok ([], none)) = [] from rfl, List.append_nil]
    refine ⟨htidy, ?_, ?_, ?_, h.state⟩ <;> rw [hexp]
    · exact h.delivered
    · exact h.spans
    · exact h.opener
  | inOrder expected rel => exact h.inOrder htidy hp expected rel
  | gap fresh unexpected ahead =>
    rw [(StreamReceiver.bufferGap_spec (rx.observed f) now f _ _).1, List.append_nil]
    exact h.gap now hp htidy unexpected ahead

theorem call {σ : Feed} {a : Arrival} (h : Ledger p σ.delivered σ.receiver)
    (hp : a.frame.header.publisherId = p) (unwrapped : Unwrapped σ.receiver a.frame) :
    Ledger p (σ.call a).delivered (σ.call a).receiver := by
  rw [Feed.call_delivered, Feed.call_receiver]
  exact h.step a.now hp unwrapped

end Ledger

end Rtdp
