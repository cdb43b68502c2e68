import Rtdp.Core.Delivery.Requests

/-!
# Stalls in `ReliableOrdered` mode

A receiver that holds frames beyond a gap can go on only when the gap is asked
for. `process_data_frame` buffers the frame first and asks second, and
`create_replay_request` may refuse. While each refusal leaves no missing
sequence before the frame uncovered, every missing sequence below a buffered
frame is covered by an outstanding request; after any other refusal the missing
frames before the uncovered one bring the receiver to a silent stop.
-/

namespace Rtdp

/-- Some outstanding request asks for sequence `j`. -/
def CoveredBy (eng : RecoveryEngine) (j : UInt64) : Prop :=
  ∃ (id : UInt64) (req : ActiveReplayRequest), eng.outstandingRequests[id]? = some req ∧
    req.fromSequence ≤ j ∧ j ≤ req.toSequence

/-- A receiver that waits behind a gap asks for it, or has given up openly. -/
def Asking (rx : StreamReceiver) : Prop :=
  (∃ (k : UInt64) (f : OwnedFrame), rx.recovery.bufferedOutOfOrder[k]? = some f ∧
      rx.tracker.expectedSequence < k) →
    CoveredBy rx.recovery rx.tracker.expectedSequence ∨ rx.recovery.state = .recoveryFailed

/-- If the frame opens a gap and the request for it is refused, what is missing is covered. -/
def RefusalHarmless (rx : StreamReceiver) (f : OwnedFrame) : Prop :=
  rx.keyOf f ∉ rx.dedup.recentKeys → rx.expectedOf f < f.seq →
    rx.recovery.Refuses (rx.expectedOf f) (f.seq - 1) →
    ∀ j, rx.expectedOf f ≤ j → j < f.seq → rx.recovery.bufferedOutOfOrder[j]? = none →
      CoveredBy rx.recovery j

/-- If the frame is the expected one, the sequences behind it are not all buffered up to the
last `u64`. -/
def Unwrapped (rx : StreamReceiver) (f : OwnedFrame) : Prop :=
  f.seq = rx.expectedOf f → ∃ m, f.seq < m ∧ rx.recovery.bufferedOutOfOrder[m]? = none

/-- A frame that opens a gap lies beyond the expected sequence, unless it carries sequence 0. -/
theorem StreamReceiver.gap_ahead {rx : StreamReceiver} {f : OwnedFrame}
    (unexpected : f.seq ≠ rx.expectedOf f)
    (ahead : rx.tracker.activePublisherId = some f.header.publisherId → rx.expectedOf f < f.seq) :
    f.seq = 0 ∨ rx.expectedOf f < f.seq := by
  by_cases hactive : rx.tracker.activePublisherId = some f.header.publisherId
  · exact Or.inr (ahead hactive)
  · rw [StreamReceiver.expectedOf, StreamSequenceTracker.expectedFor_inactive hactive] at unexpected ⊢
    by_cases hzero : f.seq = 0
    · exact Or.inl hzero
    · exact Or.inr (Counter.one_lt_of_pos_of_ne (UInt64.pos_iff_ne_zero.mpr hzero) unexpected)

/-- The range asked for is not empty; from sequence 0 it runs to the last `u64`. -/
theorem StreamReceiver.gap_span {rx : StreamReceiver} {f : OwnedFrame}
    (ahead : f.seq = 0 ∨ rx.expectedOf f < f.seq) : rx.expectedOf f ≤ f.seq - 1 := by
  rcases ahead with hzero | hlt
  · rw [hzero]
    exact UInt64.le_iff_toNat_le.mpr (Nat.le_of_lt_succ (UInt64.toNat_lt _))
  · exact Counter.le_pred_of_lt hlt

/-! ## Where the expectation stands -/

/-- What was seen of `p` lies below the expectation or is buffered above it. -/
structure Tidy (p : UInt64) (rx : StreamReceiver) : Prop where
  sole : Sole p rx
  expected : rx.tracker.expectedSequence = rx.tracker.expectedFor p
  pos : 0 < rx.tracker.expectedFor p
  keyed : OrderedMap.Keyed OwnedFrame.seq rx.recovery.bufferedOutOfOrder
  above : ∀ (k : UInt64) f, rx.recovery.bufferedOutOfOrder[k]? = some f →
    k = 0 ∨ rx.tracker.expectedFor p < k
  recorded : ∀ key ∈ rx.dedup.recentKeys, key.publisherId = p →
    key.sequence < rx.tracker.expectedFor p ∨
      ∃ f, rx.recovery.bufferedOutOfOrder[key.sequence]? = some f
  unfailed : rx.recovery.state ≠ .recoveryFailed

namespace Tidy

variable {p : UInt64} {rx : StreamReceiver} {f : OwnedFrame}

theorem fresh (cfg : RecoveryConfig) (streamId p : UInt64) :
    Tidy p (StreamReceiver.new streamId .reliableOrdered cfg) := by
  refine ⟨Sole.fresh cfg streamId p, rfl, (by decide : (0 : UInt64) < 1), OrderedMap.Keyed.empty, ?_, ?_, ?_⟩
  · intro k f hf
    simp [StreamReceiver.new, RecoveryEngine.new] at hf
  · intro key hkey
    simp [StreamReceiver.new, DuplicateFilter.new] at hkey
  · intro h
    cases h

theorem next_missing (h : Tidy p rx) :
    rx.recovery.bufferedOutOfOrder[rx.tracker.expectedFor p]? = none := by
  cases hget : rx.recovery.bufferedOutOfOrder[rx.tracker.expectedFor p]? with
  | none => rfl
  | some g =>
    have hpos := h.pos
    rcases h.above _ g hget with hzero | hlt
    · rw [hzero] at hpos
      exact absurd hpos (UInt64.lt_irrefl _)
    · exact absurd hlt (UInt64.lt_irrefl _)

/-- The filter does not suppress the expected frame. -/
theorem expected_unrecorded (h : Tidy p rx) (hp : f.header.publisherId = p)
    (hexp : f.seq = rx.expectedOf f) : rx.keyOf f ∉ rx.dedup.recentKeys := by
  intro hrec
  rw [StreamReceiver.expectedOf, hp] at hexp
  rcases h.recorded _ hrec hp with hlt | ⟨g, hg⟩
  · rw [StreamReceiver.keyOf_sequence, hexp] at hlt
    exact UInt64.lt_irrefl _ hlt
  · rw [StreamReceiver.keyOf_sequence, hexp, h.next_missing] at hg
    cases hg

/-- A frame that is known already and not the expected one. -/
theorem idle (h : Tidy p rx) (sole : Sole p (rx.observed f)) (hp : f.header.publisherId = p)
    (hne : f.seq ≠ rx.expectedOf f)
    (known : f.seq < rx.tracker.expectedFor p ∨ ∃ g, rx.recovery.bufferedOutOfOrder[f.seq]? = some g) :
    Tidy p (rx.observed f) := by
  have hexp : (rx.observed f).tracker.expectedFor p = rx.tracker.expectedFor p := by
    rw [← hp]
    exact StreamReceiver.observed_expectedFor hne
  refine ⟨sole, ?_, by rw [hexp]; exact h.pos, h.keyed, by rw [hexp]; exact h.above, ?_, h.unfailed⟩
  · exact (StreamSequenceTracker.expectedFor_active (by simp [hp])).symm
  · intro key hkey hpub
    rw [hexp]
    rcases StreamReceiver.observed_recorded hkey with rfl | hkey
    · exact known
    · exact h.recorded key hkey hpub

theorem gap (h : Tidy p rx) {now : Instant} {a b : UInt64}
    (sole : Sole p ((rx.observed f).bufferGap now f a b).2) (hp : f.header.publisherId = p)
    (hne : f.seq ≠ rx.expectedOf f) (ahead : f.seq = 0 ∨ rx.tracker.expectedFor p < f.seq) :
    Tidy p ((rx.observed f).bufferGap now f a b).2 := by
  have hexp : (rx.observed f).tracker.expectedFor p = rx.tracker.expectedFor p := by
    rw [← hp]
    exact StreamReceiver.observed_expectedFor hne
  refine ⟨sole, ?_, ?_, StreamReceiver.bufferGap_keyed now h.keyed, ?_, ?_, ?_⟩
  · rw [StreamReceiver.bufferGap_tracker]
    exact (StreamSequenceTracker.expectedFor_active (by simp [hp])).symm
  · rw [StreamReceiver.bufferGap_tracker, hexp]
    exact h.pos
  · intro k g hg
    rw [StreamReceiver.bufferGap_get] at hg
    rw [StreamReceiver.bufferGap_tracker, hexp]
    split at hg
    · rename_i heq
      rw [heq]
      exact ahead
    · exact h.above k g hg
  · intro key hkey hpub
    rw [StreamReceiver.bufferGap_dedup] at hkey
    rw [StreamReceiver.bufferGap_tracker, hexp, StreamReceiver.bufferGap_get]
    by_cases hseq : key.sequence = f.seq
    · exact Or.inr ⟨f, if_pos hseq⟩
    · rw [if_neg hseq]
      rcases StreamReceiver.observed_recorded hkey with rfl | hkey
      · exact absurd rfl hseq
      · exact h.recorded key hkey hpub
  · by_cases refused : rx.recovery.Refuses a b
    · obtain ⟨e, he⟩ := StreamReceiver.bufferGap_refused (rx.observed f) now f refused
      rw [he]
      exact h.unfailed
    · rw [StreamReceiver.bufferGap_accepted (rx.observed f) now f refused]
      intro hstate
      cases hstate

theorem inOrder (h : Tidy p rx) {drained : List OwnedFrame} {left : OrderedMap UInt64 OwnedFrame}
    {n : ℕ} {result : Delivery × StreamReceiver} (sole : Sole p result.2)
    (hp : f.header.publisherId = p) (hexp : f.seq = rx.expectedOf f)
    (rel : StreamReceiver.Released rx f drained left n result) : Tidy p result.2 := by
  have hE : rx.tracker.expectedFor p = f.seq := by rw [hexp, StreamReceiver.expectedOf, hp]
  have hE' : result.2.tracker.expectedFor p = result.2.tracker.expectedSequence := by
    apply StreamSequenceTracker.expectedFor_active
    rw [rel.active]
    simp [hp]
  have hnext := rel.next
  refine ⟨sole, hE'.symm, ?_, ?_, ?_, ?_, ?_⟩
  · rw [hE', UInt64.lt_iff_toNat_lt, hnext, UInt64.toNat_zero]
    omega
  · rw [rel.recovery]
    exact rel.toStretch.keyed h.keyed
  · intro k g hg
    rw [rel.recovery, rel.left_get] at hg
    split at hg
    · cases hg
    · rename_i hout
      apply (h.above k g hg).imp_right
      intro hlt
      rw [hE, UInt64.lt_iff_toNat_lt] at hlt
      rw [hE', UInt64.lt_iff_toNat_lt, hnext]
      have : k.toNat ≠ f.seq.toNat + 1 + n := by
        intro heq
        rw [rel.stop k heq] at hg
        cases hg
      omega
  · intro key hkey hpub
    rw [rel.dedup] at hkey
    rw [hE', rel.recovery, rel.left_get]
    by_cases hin : key.sequence.toNat < f.seq.toNat + 1 + n
    · left
      rw [UInt64.lt_iff_toNat_lt, hnext]
      exact hin
    · rw [if_neg (by omega)]
      rcases StreamReceiver.observed_recorded hkey with rfl | hkey
      · rw [StreamReceiver.keyOf_sequence] at hin
        omega
      · refine (h.recorded key hkey hpub).imp_left fun hlt => ?_
        rw [hE, UInt64.lt_iff_toNat_lt] at hlt
        omega
  · rw [rel.recovery]
    exact h.unfailed

/-- **Step**: what a frame of `p` does, given that the stretch behind it does not wrap. -/
inductive Outcome (p : UInt64) (rx : StreamReceiver) (now : Instant) (f : OwnedFrame) :
    Delivery × StreamReceiver → Prop where
  | idle (unexpected : f.seq ≠ rx.expectedOf f) : Outcome p rx now f (.ok ([], none), rx.observed f)
  | inOrder (expected : f.seq = rx.expectedOf f) {drained : List OwnedFrame}
      {left : OrderedMap UInt64 OwnedFrame} {n : ℕ} {result : Delivery × StreamReceiver}
      (rel : StreamReceiver.Released rx f drained left n result) : Outcome p rx now f result
  | gap (fresh : rx.keyOf f ∉ rx.dedup.recentKeys) (unexpected : f.seq ≠ rx.expectedOf f)
      (ahead : f.seq = 0 ∨ rx.tracker.expectedFor p < f.seq) :
      Outcome p rx now f ((rx.observed f).bufferGap now f (rx.expectedOf f) (f.seq - 1))

theorem step (h : Tidy p rx) (now : Instant) (hp : f.header.publisherId = p)
    (unwrapped : Unwrapped rx f) :
    Tidy p (rx.processDataFrame now f).2 ∧ Outcome p rx now f (rx.processDataFrame now f) := by
  have hsole := h.sole.step now hp
  have hcases := StreamReceiver.reliable_cases h.sole.mode now f
  generalize rx.processDataFrame now f = result at hcases hsole ⊢
  cases hcases with
  | suppressed dup =>
    have hne : f.seq ≠ rx.expectedOf f := fun hexp => h.expected_unrecorded hp hexp dup
    exact ⟨h.idle hsole hp hne (h.recorded _ dup hp), .idle hne⟩
  | inOrder fresh live expected =>
    obtain ⟨m, hm, hnone⟩ := unwrapped expected
    obtain ⟨drained, left, n, rel⟩ := StreamReceiver.released h.keyed expected hm hnone
    exact ⟨h.inOrder hsole hp expected rel, .inOrder expected rel⟩
  | reset fresh other started first =>
    rw [hp] at other
    exact (h.sole.live.elim started other).elim
  | gap fresh unexpected ahead =>
    have hahead := StreamReceiver.gap_ahead unexpected ahead
    rw [StreamReceiver.expectedOf, hp] at hahead
    exact ⟨h.gap hsole hp unexpected hahead, .gap fresh unexpected hahead⟩
  | old fresh same behind =>
    have hne : f.seq ≠ rx.expectedOf f := fun hexp => UInt64.lt_irrefl _ (hexp ▸ behind)
    rw [StreamReceiver.expectedOf, hp] at behind
    exact ⟨h.idle hsole hp hne (Or.inl behind), .idle hne⟩

end Tidy

/-! ## Coverage -/

theorem CoveredBy.step {p : UInt64} {rx : StreamReceiver} {f : OwnedFrame} {j : UInt64}
    (h : CoveredBy rx.recovery j) (sole : Sole p rx) (now : Instant) (hp : f.header.publisherId = p) :
    CoveredBy (rx.processDataFrame now f).2.recovery j := by
  obtain ⟨id, req, hget, hfrom, hto⟩ := h
  refine ⟨id, req, ?_, hfrom, hto⟩
  apply StreamReceiver.outstanding_kept sole.mode now f sole.numbered ?_ hget
  rw [hp]
  exact sole.live.imp_right Or.inl

/-- Every missing sequence below a buffered one is covered. -/
structure Covered (p : UInt64) (rx : StreamReceiver) : Prop extends Tidy p rx where
  covered : ∀ (k : UInt64) f, rx.recovery.bufferedOutOfOrder[k]? = some f →
    ∀ j, rx.tracker.expectedFor p ≤ j → j < k → rx.recovery.bufferedOutOfOrder[j]? = none →
      CoveredBy rx.recovery j

namespace Covered

variable {p : UInt64} {rx : StreamReceiver} {f : OwnedFrame}

theorem step (h : Covered p rx) (now : Instant) (hp : f.header.publisherId = p)
    (unwrapped : Unwrapped rx f) (harmless : RefusalHarmless rx f) :
    Covered p (rx.processDataFrame now f).2 := by
  obtain ⟨htidy, houtcome⟩ := h.toTidy.step now hp unwrapped
  have hkept : ∀ j, CoveredBy rx.recovery j → CoveredBy (rx.processDataFrame now f).2.recovery j :=
    fun j hj => hj.step h.sole now hp
  refine ⟨htidy, ?_⟩
  generalize rx.processDataFrame now f = result at htidy houtcome hkept ⊢
  cases houtcome with
  | idle unexpected =>
    intro k g hg j hj hjk hnone
    rw [← hp, StreamReceiver.observed_expectedFor unexpected, StreamReceiver.expectedOf, hp] at hj
    exact h.covered k g hg j hj hjk hnone
  | inOrder expected rel =>
    intro k g hg j hj hjk hnone
    rw [← htidy.expected, UInt64.le_iff_toNat_le, rel.next] at hj
    rw [rel.recovery, rel.left_get] at hg hnone
    rw [if_neg (by omega)] at hnone
    split at hg
    · cases hg
    · apply hkept
      refine h.covered k g hg j ?_ hjk hnone
      rw [← hp, ← StreamReceiver.expectedOf, ← expected, UInt64.le_iff_toNat_le]
      omega
  | gap fresh unexpected ahead =>
    intro k g hg j hj hjk hnone
    rw [StreamReceiver.bufferGap_tracker, ← hp, StreamReceiver.observed_expectedFor unexpected] at hj
    rw [StreamReceiver.bufferGap_get] at hg hnone
    have hjf : j ≠ f.seq := by
      intro heq
      rw [if_pos heq] at hnone
      cases hnone
    rw [if_neg hjf, StreamReceiver.observed_recovery] at hnone
    split at hg
    · -- the new frame: its own request covers the gap, or the refusal does no harm
      rename_i hk
      subst hk
      have hbeyond : rx.expectedOf f < f.seq := by
        rw [UInt64.le_iff_toNat_le] at hj
        rw [UInt64.lt_iff_toNat_lt] at hjk ⊢
        omega
      by_cases refused : rx.recovery.Refuses (rx.expectedOf f) (f.seq - 1)
      · exact hkept j (harmless fresh hbeyond refused j hj hjk hnone)
      · rw [StreamReceiver.bufferGap_accepted (rx.observed f) now f refused]
        refine ⟨rx.recovery.nextRequestId, _, by simp; rfl, hj, ?_⟩
        exact Counter.le_pred_of_lt hjk
    · apply hkept
      rw [StreamReceiver.observed_recovery] at hg
      rw [StreamReceiver.expectedOf, hp] at hj
      exact h.covered k g hg j hj hjk hnone

theorem asking (h : Covered p rx) : Asking rx := by
  rintro ⟨k, f, hget, hlt⟩
  rw [h.expected] at hlt ⊢
  exact Or.inl (h.covered k f hget _ UInt64.le_rfl hlt h.next_missing)

theorem fresh (cfg : RecoveryConfig) (streamId p : UInt64) :
    Covered p (StreamReceiver.new streamId .reliableOrdered cfg) := by
  refine ⟨Tidy.fresh cfg streamId p, ?_⟩
  intro k f hf
  simp [StreamReceiver.new, RecoveryEngine.new] at hf

end Covered

/-! ## After a harmful refusal -/

/-- The missing frames before `j`, one by one, bring the expectation to `j`; they ask for nothing. -/
theorem Tidy.advance_to {p j : UInt64} {σ : Feed} (h : Tidy p σ.receiver)
    (hle : σ.receiver.tracker.expectedFor p ≤ j)
    (hnone : σ.receiver.recovery.bufferedOutOfOrder[j]? = none) :
    ∃ rest : List Arrival, (∀ y ∈ rest, y.frame.header.publisherId = p) ∧
      ∃ rx, (Runs.run Feed.call σ rest).receiver = rx ∧ Tidy p rx ∧ rx.tracker.expectedFor p = j ∧
        rx.recovery.outstandingRequests = σ.receiver.recovery.outstandingRequests ∧
        ∀ k, j < k → rx.recovery.bufferedOutOfOrder[k]? = σ.receiver.recovery.bufferedOutOfOrder[k]? := by
  induction hd : j.toNat - (σ.receiver.tracker.expectedFor p).toNat using Nat.strongRecOn
    generalizing σ with
  | ind d ih =>
    by_cases hj : σ.receiver.tracker.expectedFor p = j
    · exact ⟨[], by simp, _, rfl, h, hj, rfl, fun k _ => rfl⟩
    have hltj : (σ.receiver.tracker.expectedFor p).toNat < j.toNat := by
      have hne : (σ.receiver.tracker.expectedFor p).toNat ≠ j.toNat :=
        fun heq => hj (UInt64.toNat_inj.mp heq)
      rw [UInt64.le_iff_toNat_le] at hle
      omega
    let y : Arrival := ⟨0, OwnedFrame.newData 1 (σ.receiver.tracker.expectedFor p) 0 p []⟩
    have hexp : y.frame.seq = σ.receiver.expectedOf y.frame := rfl
    obtain ⟨htidy, houtcome⟩ := h.step y.now (f := y.frame) rfl
      fun _ => ⟨j, UInt64.lt_iff_toNat_lt.mpr hltj, hnone⟩
    obtain ⟨drained, left, n, rel⟩ : ∃ drained left n, StreamReceiver.Released σ.receiver y.frame
        drained left n (σ.receiver.processDataFrame y.now y.frame) := by
      generalize σ.receiver.processDataFrame y.now y.frame = result at houtcome
      cases houtcome with
      | idle unexpected => exact absurd hexp unexpected
      | inOrder expected rel => exact ⟨_, _, _, rel⟩
      | gap fresh unexpected ahead => exact absurd hexp unexpected
    have hstart : y.frame.seq.toNat = (σ.receiver.tracker.expectedFor p).toNat := rfl
    have hnext : ((σ.call y).receiver.tracker.expectedFor p).toNat = y.frame.seq.toNat + 1 + n := by
      rw [Feed.call_receiver, ← htidy.expected]
      exact rel.next
    -- the stretch stops at `j` at the latest
    have hstop : y.frame.seq.toNat + 1 + n ≤ j.toNat := by
      by_contra hgt
      obtain ⟨g, hg⟩ := rel.toStretch.buffered_of_lt (k := j) (by omega) (by omega)
      rw [hnone] at hg
      cases hg
    have hbeyond : ∀ k, j ≤ k → (σ.call y).receiver.recovery.bufferedOutOfOrder[k]? =
        σ.receiver.recovery.bufferedOutOfOrder[k]? := by
      intro k hk
      rw [UInt64.le_iff_toNat_le] at hk
      rw [Feed.call_receiver, rel.recovery, rel.left_get, if_neg (by omega)]
    obtain ⟨rest, hrest, rx, hrun, hrx, hat, hout, hbuf⟩ := ih _ (by omega) (σ := σ.call y) htidy
      (by rw [UInt64.le_iff_toNat_le, hnext]; exact hstop) (by rw [hbeyond j UInt64.le_rfl, hnone]) rfl
    refine ⟨y :: rest, ?_, rx, hrun, hrx, hat, ?_, ?_⟩
    · exact List.forall_mem_cons.mpr ⟨rfl, hrest⟩
    · rw [hout, Feed.call_receiver, rel.recovery]
      rfl
    · intro k hk
      rw [hbuf k hk, hbeyond k (UInt64.le_of_lt hk)]

/-- A harmful refusal: some missing sequence before the buffered frame is covered by nothing,
and the frames before it lead to a silent stop there. -/
theorem Tidy.stalls {p : UInt64} {σ : Feed} (h : Tidy p σ.receiver) {x : Arrival}
    (hp : x.frame.header.publisherId = p) (harmful : ¬ RefusalHarmless σ.receiver x.frame) :
    ∃ rest : List Arrival, (∀ y ∈ rest, y.frame.header.publisherId = p) ∧
      ¬ Asking (Runs.run Feed.call σ (x :: rest)).receiver := by
  unfold RefusalHarmless at harmful
  push Not at harmful
  obtain ⟨fresh, hahead, refused, j, hj, hjx, hnone, huncovered⟩ := harmful
  have hne : x.frame.seq ≠ σ.receiver.expectedOf x.frame :=
    fun heq => UInt64.lt_irrefl _ (heq ▸ hahead)
  have hgap := StreamReceiver.processDataFrame_gap h.sole.mode x.now fresh hne fun _ => hahead
  obtain ⟨e, he⟩ := StreamReceiver.bufferGap_refused (σ.receiver.observed x.frame) x.now x.frame refused
  have hafter : Tidy p (σ.call x).receiver := (h.step x.now hp fun heq => absurd heq hne).1
  have hexp : (σ.call x).receiver.tracker.expectedFor p = σ.receiver.expectedOf x.frame := by
    rw [Feed.call_receiver, hgap, StreamReceiver.bufferGap_tracker, ← hp]
    exact StreamReceiver.observed_expectedFor hne
  have hget : ∀ k, (σ.call x).receiver.recovery.bufferedOutOfOrder[k]? =
      if k = x.frame.seq then some x.frame else σ.receiver.recovery.bufferedOutOfOrder[k]? := by
    intro k
    rw [Feed.call_receiver, hgap]
    exact StreamReceiver.bufferGap_get x.now k
  have hjne : j ≠ x.frame.seq := fun heq => UInt64.lt_irrefl _ (heq ▸ hjx)
  obtain ⟨rest, hrest, rx, hrun, hrx, hat, hout, hbuf⟩ :=
    hafter.advance_to (j := j) (by rw [hexp]; exact hj) (by rw [hget, if_neg hjne]; exact hnone)
  refine ⟨rest, hrest, ?_⟩
  rw [Runs.run_cons, hrun]
  intro hasking
  have hwaits : ∃ (k : UInt64) (f : OwnedFrame), rx.recovery.bufferedOutOfOrder[k]? = some f ∧
      rx.tracker.expectedSequence < k := by
    refine ⟨x.frame.seq, x.frame, ?_, ?_⟩
    · rw [hbuf _ hjx, hget, if_pos rfl]
    · rw [hrx.expected, hat]
      exact hjx
  rcases hasking hwaits with ⟨id, req, hreq, hfrom, hto⟩ | hfailed
  · rw [hrx.expected, hat] at hfrom hto
    rw [hout, Feed.call_receiver, hgap, he] at hreq
    exact huncovered ⟨id, req, hreq, hfrom, hto⟩
  · exact hrx.unfailed hfailed

/-! ## Runs -/

/-- **No silent stall**: while refusals are harmless and nothing wraps, a waiting receiver asks;
from any state so reached, a harmful refusal makes room for a silent stop. -/
theorem reliable_never_stalls (cfg : RecoveryConfig) (streamId p : UInt64) (arrivals : List Arrival)
    (hp : ∀ y ∈ arrivals, y.frame.header.publisherId = p)
    (each : Runs.Each Feed.call
      (fun σ y => Unwrapped σ.receiver y.frame ∧ RefusalHarmless σ.receiver y.frame)
      (Feed.of (StreamReceiver.new streamId .reliableOrdered cfg)) arrivals) :
    let rx := StreamReceiver.new streamId .reliableOrdered cfg
    Asking (rx.feed arrivals).receiver ∧
      ∀ x : Arrival, x.frame.header.publisherId = p →
        ¬ RefusalHarmless (rx.feed arrivals).receiver x.frame →
        ∃ rest : List Arrival, (∀ y ∈ rest, y.frame.header.publisherId = p) ∧
          ¬ Asking (rx.feed (arrivals ++ x :: rest)).receiver := by
  intro rx
  have hcovered : Covered p (rx.feed arrivals).receiver := by
    have hpub : Runs.Each Feed.call (fun _ y => y.frame.header.publisherId = p) (Feed.of rx) arrivals :=
      Runs.each_of_forall hp
    refine Runs.invariant (fun σ : Feed => Covered p σ.receiver) ?_ (Covered.fresh cfg streamId p)
      (each.and hpub)
    rintro σ y hσ ⟨⟨unwrapped, harmless⟩, hy⟩
    exact hσ.step y.now hy unwrapped harmless
  refine ⟨hcovered.asking, fun x hx harmful => ?_⟩
  obtain ⟨rest, hrest, hstall⟩ := hcovered.toTidy.stalls hx harmful
  refine ⟨rest, hrest, ?_⟩
  rw [StreamReceiver.feed, Runs.run_append]
  exact hstall

/-- Frame 1, then frame 3 behind a gap: the request for 2 covers it. -/
theorem reliable_never_stalls_gap :
    Asking ((StreamReceiver.new 1 .reliableOrdered RecoveryConfig.default).feed
      (arrivalsOf 9 [1, 3])).receiver := by
  refine (reliable_never_stalls RecoveryConfig.default 1 9 (arrivalsOf 9 [1, 3]) (by decide) ?_).1
  refine ⟨⟨fun _ => ⟨2, by decide, by decide +kernel⟩, ?_⟩, ⟨?_, ?_⟩, trivial⟩
  · intro _ hlt
    exact absurd hlt (by decide +kernel)
  · intro heq
    exact absurd heq (by decide +kernel)
  · intro _ _ refused
    exact absurd refused (by decide +kernel)

/-- A subscriber that joins late at frame 5000: the range 1..4999 is refused, nothing is asked
for, and the state stays `Live`. -/
theorem reliable_stalls_late_joiner :
    ¬ Asking ((StreamReceiver.new 1 .reliableOrdered RecoveryConfig.default).feed
      (arrivalsOf 9 [5000])).receiver := by
  intro h
  have hempty : ((StreamReceiver.new 1 .reliableOrdered RecoveryConfig.default).feed
      (arrivalsOf 9 [5000])).receiver.recovery.outstandingRequests.isEmpty = true := by decide +kernel
  have hheld : ∃ (k : UInt64) (f : OwnedFrame),
      ((StreamReceiver.new 1 .reliableOrdered RecoveryConfig.default).feed
        (arrivalsOf 9 [5000])).receiver.recovery.bufferedOutOfOrder[k]? = some f ∧
      ((StreamReceiver.new 1 .reliableOrdered RecoveryConfig.default).feed
        (arrivalsOf 9 [5000])).receiver.tracker.expectedSequence < k :=
    ⟨5000, OwnedFrame.newData 1 5000 0 9 [], by decide +kernel, by decide +kernel⟩
  rcases h hheld with ⟨id, req, hget, -⟩ | hfailed
  · rw [Std.ExtTreeMap.isEmpty_iff.mp hempty] at hget
    cases hget
  · exact absurd hfailed (by decide +kernel)

end Rtdp
