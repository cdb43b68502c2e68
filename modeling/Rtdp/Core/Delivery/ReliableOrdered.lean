import Rtdp.Core.Delivery.Modes

/-!
# What one DATA frame does in `ReliableOrdered` mode

`ReliableStep` lists the five things that can happen to a frame; every fact
about runs is derived from it. In each case the tracker has observed the frame
and the duplicate filter has recorded it before anything else, whether or not
the frame is delivered.
-/

namespace Rtdp.StreamReceiver

variable {rx : StreamReceiver} {now : Instant} {frame : OwnedFrame}

/-- The key under which the duplicate filter knows a frame. -/
def keyOf (rx : StreamReceiver) (frame : OwnedFrame) : DuplicateKey :=
  ⟨rx.streamId, frame.header.publisherId, frame.header.sequence⟩

@[simp] theorem keyOf_publisherId : (rx.keyOf frame).publisherId = frame.header.publisherId := rfl
@[simp] theorem keyOf_sequence : (rx.keyOf frame).sequence = frame.seq := rfl

/-- The sequence the tracker would accept next from the frame's publisher. -/
def expectedOf (rx : StreamReceiver) (frame : OwnedFrame) : UInt64 :=
  rx.tracker.expectedFor frame.header.publisherId

/-- The receiver after the tracker has observed the frame and the filter has seen its key. -/
def observed (rx : StreamReceiver) (frame : OwnedFrame) : StreamReceiver :=
  { rx with
    tracker := (rx.tracker.observe frame.header.publisherId frame.header.sequence).2
    dedup := (rx.dedup.isDuplicateAndRecord (rx.keyOf frame)).2 }

/-- The outcomes of one DATA frame. -/
inductive ReliableStep (rx : StreamReceiver) (now : Instant) (frame : OwnedFrame) :
    Delivery × StreamReceiver → Prop where
  | suppressed (dup : rx.keyOf frame ∈ rx.dedup.recentKeys) :
      ReliableStep rx now frame (.ok ([], none), rx.observed frame)
  | inOrder (fresh : rx.keyOf frame ∉ rx.dedup.recentKeys)
      (live : rx.tracker.activePublisherId = none ∨
        rx.tracker.activePublisherId = some frame.header.publisherId)
      (expected : frame.seq = rx.expectedOf frame) :
      ReliableStep rx now frame ((rx.observed frame).deliverInOrder frame frame.seq)
  | reset (fresh : rx.keyOf frame ∉ rx.dedup.recentKeys)
      (other : rx.tracker.activePublisherId ≠ some frame.header.publisherId)
      (started : rx.tracker.activePublisherId ≠ none) (first : frame.seq = 1) :
      ReliableStep rx now frame
        (.ok ([frame], none),
          { rx.observed frame with
            recovery := rx.recovery.reset
            highestDeliveredSequence := 1 })
  | gap (fresh : rx.keyOf frame ∉ rx.dedup.recentKeys) (unexpected : frame.seq ≠ rx.expectedOf frame)
      (ahead : rx.tracker.activePublisherId = some frame.header.publisherId →
        rx.expectedOf frame < frame.seq) :
      ReliableStep rx now frame
        ((rx.observed frame).bufferGap now frame (rx.expectedOf frame) (frame.seq - 1))
  | old (fresh : rx.keyOf frame ∉ rx.dedup.recentKeys)
      (same : rx.tracker.activePublisherId = some frame.header.publisherId)
      (behind : frame.seq < rx.expectedOf frame) :
      ReliableStep rx now frame (.ok ([], none), rx.observed frame)

/-- Every call in `ReliableOrdered` mode is one of the five. -/
theorem reliable_cases (mode : rx.mode = .reliableOrdered) (now : Instant) (frame : OwnedFrame) :
    ReliableStep rx now frame (rx.processDataFrame now frame) := by
  have hprocess : rx.processDataFrame now frame =
      if (rx.dedup.isDuplicateAndRecord (rx.keyOf frame)).1 then (.ok ([], none), rx.observed frame)
      else (rx.observed frame).processReliableOrdered now frame
        (rx.tracker.observe frame.header.publisherId frame.header.sequence).1 := by
    obtain ⟨_, _, _, _, _, _⟩ := rx
    subst mode
    rfl
  rw [hprocess]
  by_cases dup : rx.keyOf frame ∈ rx.dedup.recentKeys
  · rw [if_pos (DuplicateFilter.isDuplicateAndRecord_fst.mpr dup)]
    exact .suppressed dup
  rw [if_neg (mt DuplicateFilter.isDuplicateAndRecord_fst.mp dup)]
  by_cases expected : frame.seq = rx.expectedOf frame
  · by_cases live : rx.tracker.activePublisherId = none ∨
        rx.tracker.activePublisherId = some frame.header.publisherId
    · rw [StreamSequenceTracker.observe_status_same live expected]
      exact .inOrder dup live expected
    · obtain ⟨started, other⟩ := not_or.mp live
      obtain ⟨first, status⟩ := StreamSequenceTracker.observe_status_reset started other expected
      rw [status]
      exact .reset dup other started first
  · rcases StreamSequenceTracker.observe_status_other expected with ⟨status, ahead⟩ | ⟨status, same, behind⟩
    · rw [status]
      exact .gap dup expected ahead
    · rw [status]
      exact .old dup same behind

/-- The frame is the one the tracker expects, and the filter does not know it. -/
def Accepts (rx : StreamReceiver) (frame : OwnedFrame) : Prop :=
  rx.keyOf frame ∉ rx.dedup.recentKeys ∧ frame.seq = rx.expectedOf frame

/-- It is delivered in order, unless it replaces another publisher. -/
theorem processDataFrame_inOrder (mode : rx.mode = .reliableOrdered) (now : Instant)
    (live : rx.tracker.activePublisherId = none ∨
      rx.tracker.activePublisherId = some frame.header.publisherId)
    (accepts : rx.Accepts frame) :
    rx.processDataFrame now frame = (rx.observed frame).deliverInOrder frame frame.seq := by
  obtain ⟨fresh, expected⟩ := accepts
  have hcases := reliable_cases mode now frame
  generalize rx.processDataFrame now frame = result at hcases ⊢
  cases hcases with
  | suppressed dup => exact absurd dup fresh
  | inOrder fresh live expected => rfl
  | reset fresh other started first => exact (live.elim started other).elim
  | gap fresh unexpected ahead => exact absurd expected unexpected
  | old fresh same behind => exact absurd (expected ▸ behind) (UInt64.lt_irrefl _)

/-- A fresh frame off the expectation, and not behind it, opens a gap. -/
theorem processDataFrame_gap (mode : rx.mode = .reliableOrdered) (now : Instant)
    (fresh : rx.keyOf frame ∉ rx.dedup.recentKeys) (unexpected : frame.seq ≠ rx.expectedOf frame)
    (ahead : rx.tracker.activePublisherId = some frame.header.publisherId →
      rx.expectedOf frame < frame.seq) :
    rx.processDataFrame now frame =
      (rx.observed frame).bufferGap now frame (rx.expectedOf frame) (frame.seq - 1) := by
  have hcases := reliable_cases mode now frame
  generalize rx.processDataFrame now frame = result at hcases ⊢
  cases hcases with
  | suppressed dup => exact absurd dup fresh
  | inOrder fresh live expected => exact absurd expected unexpected
  | reset fresh other started first =>
    rw [expectedOf, StreamSequenceTracker.expectedFor_inactive other] at unexpected
    exact absurd first unexpected
  | gap fresh unexpected ahead => rfl
  | old fresh same behind => exact absurd (UInt64.lt_trans behind (ahead same)) (UInt64.lt_irrefl _)

/-! ## The receiver after the observation -/

@[simp] theorem observed_mode : (rx.observed frame).mode = rx.mode := rfl
@[simp] theorem observed_streamId : (rx.observed frame).streamId = rx.streamId := rfl
@[simp] theorem observed_recovery : (rx.observed frame).recovery = rx.recovery := rfl
@[simp] theorem observed_active :
    (rx.observed frame).tracker.activePublisherId = some frame.header.publisherId :=
  StreamSequenceTracker.observe_active

theorem observed_expected :
    (rx.observed frame).tracker.expectedSequence =
      if frame.seq = rx.expectedOf frame then rx.expectedOf frame + 1 else rx.expectedOf frame :=
  StreamSequenceTracker.observe_expected

/-- Any frame but the expected one leaves the expectation alone. -/
theorem observed_expectedFor (unexpected : frame.seq ≠ rx.expectedOf frame) :
    (rx.observed frame).tracker.expectedFor frame.header.publisherId = rx.expectedOf frame := by
  rw [StreamSequenceTracker.expectedFor_active observed_active, observed_expected, if_neg unexpected]

theorem observed_recorded {k : DuplicateKey} (h : k ∈ (rx.observed frame).dedup.recentKeys) :
    k = rx.keyOf frame ∨ k ∈ rx.dedup.recentKeys :=
  DuplicateFilter.recentKeys_subset h

/-! ## In-order delivery -/

/-- The tracker after the loop over the drained frames. -/
def advanceOver (e : UInt64) (drained : List OwnedFrame) : UInt64 :=
  drained.foldl (fun e c => if c.seq + 1 > e then c.seq + 1 else e) e

theorem foldl_noteDrained (drained : List OwnedFrame) (rx : StreamReceiver) :
    ∃ tracker highest, drained.foldl noteDrained rx =
        { rx with tracker, highestDeliveredSequence := highest } ∧
      tracker.activePublisherId = rx.tracker.activePublisherId ∧
      tracker.expectedSequence = advanceOver rx.tracker.expectedSequence drained ∧
      highest = (drained.map OwnedFrame.seq).getLastD rx.highestDeliveredSequence := by
  induction drained generalizing rx with
  | nil => exact ⟨_, _, rfl, rfl, rfl, rfl⟩
  | cons c cs ih =>
    obtain ⟨tracker, highest, heq, hactive, hexpected, hhighest⟩ := ih (rx.noteDrained c)
    refine ⟨tracker, highest, by rw [List.foldl_cons, heq]; rfl, ?_, ?_, ?_⟩
    · rw [hactive]
      exact StreamSequenceTracker.advanceExpected_active _
    · rw [hexpected]
      exact congrArg (advanceOver · cs) (StreamSequenceTracker.advanceExpected_expected _)
    · rw [hhighest, List.map_cons, List.getLastD_cons]
      rfl

/-- What `deliverInOrder` returns and leaves. -/
structure DeliveredInOrder (rx : StreamReceiver) (frame : OwnedFrame) (s : UInt64)
    (drained : List OwnedFrame) (left : OrderedMap UInt64 OwnedFrame)
    (result : Delivery × StreamReceiver) : Prop where
  frames : result.1 = .ok (frame :: drained, none)
  mode : result.2.mode = rx.mode
  streamId : result.2.streamId = rx.streamId
  dedup : result.2.dedup = rx.dedup
  recovery : result.2.recovery = { rx.recovery with bufferedOutOfOrder := left }
  active : result.2.tracker.activePublisherId = rx.tracker.activePublisherId
  expected : result.2.tracker.expectedSequence = advanceOver rx.tracker.expectedSequence drained
  highest : result.2.highestDeliveredSequence = (drained.map OwnedFrame.seq).getLastD s

theorem deliverInOrder_spec (rx : StreamReceiver) (frame : OwnedFrame) (s : UInt64) :
    DeliveredInOrder rx frame s (drainFrom (s + 1) rx.recovery.bufferedOutOfOrder).1
      (drainFrom (s + 1) rx.recovery.bufferedOutOfOrder).2 (rx.deliverInOrder frame s) := by
  obtain ⟨tracker, highest, heq, hactive, hexpected, hhighest⟩ :=
    foldl_noteDrained (drainFrom (s + 1) rx.recovery.bufferedOutOfOrder).1
      { rx with
        highestDeliveredSequence := s
        recovery := (rx.recovery.drainContiguous (s + 1)).2 }
  have hresult : rx.deliverInOrder frame s =
      (.ok (frame :: (drainFrom (s + 1) rx.recovery.bufferedOutOfOrder).1, none),
        { rx with
          recovery := { rx.recovery with
            bufferedOutOfOrder := (drainFrom (s + 1) rx.recovery.bufferedOutOfOrder).2 }
          tracker, highestDeliveredSequence := highest }) :=
    Prod.ext rfl heq
  rw [hresult]
  exact ⟨rfl, rfl, rfl, rfl, rfl, hactive, hexpected, hhighest⟩

/-- Over an unwrapped stretch the tracker ends right behind it. -/
theorem advanceOver_range {c : UInt64} {n : Nat} {drained : List OwnedFrame}
    (seqs : (drained.map fun f => f.seq.toNat) = List.range' c.toNat n) (fits : c.toNat + n < 2 ^ 64) :
    (advanceOver c drained).toNat = c.toNat + n := by
  induction n generalizing c drained with
  | zero =>
    obtain rfl : drained = [] := by simpa using seqs
    rfl
  | succ n ih =>
    rw [List.range'_succ] at seqs
    cases drained with
    | nil => cases seqs
    | cons f fs =>
      obtain ⟨hf, hfs⟩ := List.cons_eq_cons.mp seqs
      have hstep : (c + 1).toNat = c.toNat + 1 := Counter.toNat_succ (by omega)
      have hgt : f.seq + 1 > c := by
        rw [UInt64.toNat_inj.mp hf, gt_iff_lt, UInt64.lt_iff_toNat_lt, hstep]
        omega
      rw [← hstep] at hfs
      have := ih hfs (by omega)
      simp only [advanceOver, List.foldl_cons, if_pos hgt] at this ⊢
      rw [UInt64.toNat_inj.mp hf]
      omega

/-- An in-order frame, when the stretch buffered behind it stops short of the last `u64`. -/
structure Released (rx : StreamReceiver) (frame : OwnedFrame) (drained : List OwnedFrame)
    (left : OrderedMap UInt64 OwnedFrame) (n : Nat) (result : Delivery × StreamReceiver) : Prop
    extends DeliveredInOrder (rx.observed frame) frame frame.seq drained left result,
      Stretch frame.seq rx.recovery.bufferedOutOfOrder drained left n where
  next : result.2.tracker.expectedSequence.toNat = frame.seq.toNat + 1 + n

/-- An accepted frame is delivered with what the drain takes. -/
theorem deliverInOrder_drained (keyed : OrderedMap.Keyed OwnedFrame.seq rx.recovery.bufferedOutOfOrder)
    (frame : OwnedFrame) :
    ∃ drained left n,
      DeliveredInOrder (rx.observed frame) frame frame.seq drained left
        ((rx.observed frame).deliverInOrder frame frame.seq) ∧
      Drained (frame.seq + 1) rx.recovery.bufferedOutOfOrder drained left n := by
  obtain ⟨n, hdrained⟩ := drainFrom_drained keyed (c := frame.seq + 1)
  exact ⟨_, _, n, deliverInOrder_spec (rx.observed frame) frame frame.seq, hdrained⟩

theorem released (keyed : OrderedMap.Keyed OwnedFrame.seq rx.recovery.bufferedOutOfOrder)
    (expected : frame.seq = rx.expectedOf frame) {m : UInt64} (hm : frame.seq < m)
    (hnone : rx.recovery.bufferedOutOfOrder[m]? = none) :
    ∃ drained left n,
      Released rx frame drained left n ((rx.observed frame).deliverInOrder frame frame.seq) := by
  obtain ⟨drained, left, n, hspec, hdrained⟩ := deliverInOrder_drained keyed frame
  have hstretch := hdrained.stretch hm hnone
  refine ⟨drained, left, n, hspec, hstretch, ?_⟩
  have hsucc := Counter.toNat_succ_of_lt hm
  have hseqs := hstretch.seqs
  have hfits := hstretch.fits
  rw [← hsucc] at hseqs hfits
  rw [hspec.expected, observed_expected, if_pos expected, ← expected, advanceOver_range hseqs hfits, hsucc]

theorem advanceOver_le {e : UInt64} {b : Nat} {drained : List OwnedFrame} (he : e.toNat ≤ b)
    (h : ∀ f ∈ drained, (f.seq + 1).toNat ≤ b) : (advanceOver e drained).toNat ≤ b := by
  induction drained generalizing e with
  | nil => exact he
  | cons f fs ih =>
    obtain ⟨hf, hfs⟩ := List.forall_mem_cons.mp h
    refine ih ?_ hfs
    dsimp only
    split
    · exact hf
    · exact he

/-- The tracker passes only what was drained. -/
theorem mem_of_lt_advanceOver {s k : UInt64} {n : Nat} {drained : List OwnedFrame}
    (seqs : drained.map OwnedFrame.seq = consecutive (s + 1) n) (hs : s < k)
    (hk : k < advanceOver (s + 1) drained) : k ∈ drained.map OwnedFrame.seq := by
  have hsucc := Counter.toNat_succ_of_lt hs
  have hbound : (advanceOver (s + 1) drained).toNat ≤ (s + 1).toNat + n := by
    refine advanceOver_le (by omega) fun f hf => ?_
    have hmem : f.seq ∈ consecutive (s + 1) n := seqs ▸ List.mem_map_of_mem hf
    obtain ⟨i, hi, heq⟩ := mem_consecutive.mp hmem
    have hi64 : (UInt64.ofNat i).toNat ≤ i := by
      rw [UInt64.toNat_ofNat']
      exact Nat.mod_le _ _
    rw [← heq, UInt64.toNat_add, UInt64.toNat_add, UInt64.toNat_one]
    have h1 := Nat.mod_le ((s + 1).toNat + (UInt64.ofNat i).toNat) (2 ^ 64)
    have h2 := Nat.mod_le (((s + 1).toNat + (UInt64.ofNat i).toNat) % 2 ^ 64 + 1) (2 ^ 64)
    omega
  rw [UInt64.lt_iff_toNat_lt] at hs hk
  rw [seqs]
  refine mem_consecutive_of_le ?_ (by omega)
  rw [UInt64.le_iff_toNat_le]
  omega

/-! ## Buffering behind a gap -/

variable {a b : UInt64}

/-- A refused request leaves the frame buffered. -/
theorem bufferGap_refused (rx : StreamReceiver) (now : Instant) (frame : OwnedFrame)
    (h : rx.recovery.Refuses a b) :
    ∃ e, rx.bufferGap now frame a b = (.error e, { rx with recovery := rx.recovery.bufferFrame frame }) := by
  obtain ⟨e, he⟩ := RecoveryEngine.createReplayRequest_refused now (show (rx.recovery.bufferFrame frame).Refuses a b from h)
  refine ⟨e, ?_⟩
  unfold bufferGap
  dsimp only
  rw [he]

/-- An accepted one is handed out and outstanding. -/
theorem bufferGap_accepted (rx : StreamReceiver) (now : Instant) (frame : OwnedFrame)
    (h : ¬ rx.recovery.Refuses a b) :
    rx.bufferGap now frame a b =
      (.ok ([], some ⟨rx.recovery.nextRequestId, a, b⟩),
        { rx with
          recovery := { rx.recovery with
            nextRequestId := rx.recovery.nextRequestId + 1
            outstandingRequests :=
              rx.recovery.outstandingRequests.insert rx.recovery.nextRequestId (rx.recovery.freshRequest now a b)
            bufferedOutOfOrder := rx.recovery.bufferedOutOfOrder.insert frame.seq frame
            state := .recovering } }) := by
  unfold bufferGap
  dsimp only
  rw [RecoveryEngine.createReplayRequest_accepted (show ¬ (rx.recovery.bufferFrame frame).Refuses a b from h)]
  rfl

/-- What `bufferGap` returns and leaves: the frame is buffered either way. -/
theorem bufferGap_spec (rx : StreamReceiver) (now : Instant) (frame : OwnedFrame) (a b : UInt64) :
    (rx.bufferGap now frame a b).1.frames = [] ∧
      (rx.bufferGap now frame a b).2 =
        { rx with recovery := ((rx.recovery.bufferFrame frame).createReplayRequest now a b).2 } := by
  unfold bufferGap
  dsimp only
  split <;> rename_i heq <;> simp [heq, Delivery.frames]

@[simp] theorem bufferGap_tracker (now : Instant) :
    (rx.bufferGap now frame a b).2.tracker = rx.tracker := by
  rw [(bufferGap_spec rx now frame a b).2]

@[simp] theorem bufferGap_dedup (now : Instant) : (rx.bufferGap now frame a b).2.dedup = rx.dedup := by
  rw [(bufferGap_spec rx now frame a b).2]

theorem bufferGap_get (now : Instant) (k : UInt64) :
    (rx.bufferGap now frame a b).2.recovery.bufferedOutOfOrder[k]? =
      if k = frame.seq then some frame else rx.recovery.bufferedOutOfOrder[k]? := by
  rw [(bufferGap_spec rx now frame a b).2]
  simp [OrderedMap.get_insert]

theorem bufferGap_keyed (now : Instant)
    (keyed : OrderedMap.Keyed OwnedFrame.seq rx.recovery.bufferedOutOfOrder) :
    OrderedMap.Keyed OwnedFrame.seq (rx.bufferGap now frame a b).2.recovery.bufferedOutOfOrder := by
  rw [(bufferGap_spec rx now frame a b).2]
  simpa using keyed.insert frame

/-- What is outstanding then was so before, or asks for the gap. -/
theorem bufferGap_outstanding (now : Instant) {id : UInt64} {req : ActiveReplayRequest}
    (h : (rx.bufferGap now frame a b).2.recovery.outstandingRequests[id]? = some req) :
    rx.recovery.outstandingRequests[id]? = some req ∨ req.fromSequence = a ∧ req.toSequence = b := by
  by_cases refused : rx.recovery.Refuses a b
  · obtain ⟨e, he⟩ := bufferGap_refused rx now frame refused
    rw [he] at h
    exact Or.inl h
  · rw [bufferGap_accepted rx now frame refused] at h
    obtain ⟨-, rfl⟩ | ⟨-, hold⟩ := OrderedMap.get_insert_cases h
    · exact Or.inr ⟨rfl, rfl⟩
    · exact Or.inl hold

/-- No other frame delivers anything, unless it replaces another publisher. -/
theorem frames_unaccepted (mode : rx.mode = .reliableOrdered) (now : Instant)
    (live : rx.tracker.activePublisherId = none ∨
      rx.tracker.activePublisherId = some frame.header.publisherId)
    (unaccepted : ¬ rx.Accepts frame) : (rx.processDataFrame now frame).1.frames = [] := by
  have hcases := reliable_cases mode now frame
  generalize rx.processDataFrame now frame = result at hcases ⊢
  cases hcases with
  | suppressed dup => rfl
  | inOrder fresh live expected => exact absurd ⟨fresh, expected⟩ unaccepted
  | reset fresh other started first => exact (live.elim started other).elim
  | gap fresh unexpected ahead => exact (bufferGap_spec (rx.observed frame) now frame _ _).1
  | old fresh same behind => rfl

/-! ## What every call leaves -/

/-- The parts that do not depend on which of the five cases a frame falls in. -/
structure ObservedAfter (rx : StreamReceiver) (frame : OwnedFrame) (after : StreamReceiver) : Prop where
  mode : after.mode = .reliableOrdered
  streamId : after.streamId = rx.streamId
  active : after.tracker.activePublisherId = some frame.header.publisherId
  dedup : after.dedup = (rx.observed frame).dedup

theorem observed_after (mode : rx.mode = .reliableOrdered) (now : Instant) (frame : OwnedFrame) :
    ObservedAfter rx frame (rx.processDataFrame now frame).2 := by
  have hcases := reliable_cases mode now frame
  generalize rx.processDataFrame now frame = result at hcases ⊢
  cases hcases with
  | suppressed dup => exact ⟨mode, rfl, observed_active, rfl⟩
  | inOrder fresh live expected =>
    have hspec := deliverInOrder_spec (rx.observed frame) frame frame.seq
    exact ⟨hspec.mode.trans mode, hspec.streamId, hspec.active.trans observed_active, hspec.dedup⟩
  | reset fresh other started first => exact ⟨mode, rfl, observed_active, rfl⟩
  | gap fresh unexpected ahead =>
    rw [(bufferGap_spec (rx.observed frame) now frame _ _).2]
    exact ⟨mode, rfl, observed_active, rfl⟩
  | old fresh same behind => exact ⟨mode, rfl, observed_active, rfl⟩

end Rtdp.StreamReceiver
