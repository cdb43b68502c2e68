import Rtdp.Core.Delivery.AtLeastOnce
import Rtdp.Core.Delivery.ReliableOrdered
import Rtdp.Lib.Checked

/-!
# The arithmetic of a DATA frame

The functions a DATA frame passes through, with every addition and subtraction on
`u64` checked. A call that does not stop does what the call in a release build
does, and it stops exactly where the frame drives a number out of its range:
sequence 0 from a publisher that is not the active one, the last `u64` in order,
or a counter at its end.
-/

namespace Rtdp
open Checked

namespace StreamSequenceTracker

/-- `observe`, checked. -/
def observeChecked (self : StreamSequenceTracker) (publisherId sequence : UInt64) :
    Option (SequenceStatus × StreamSequenceTracker) :=
  match self.activePublisherId with
  | none =>
    if sequence = 1 then
      some (.inOrder 1, { self with activePublisherId := some publisherId, expectedSequence := 2 })
    else do
      let toSequence ← sub sequence 1
      let totalGapsDetected ← add self.totalGapsDetected 1
      some (.gap 1 sequence 1 toSequence,
        { self with
          activePublisherId := some publisherId
          expectedSequence := 1
          totalGapsDetected })
  | some activePub =>
    if activePub ≠ publisherId then do
      let oldPub := self.activePublisherId
      let totalPublisherResets ← add self.totalPublisherResets 1
      if sequence = 1 then
        some (.publisherReset oldPub publisherId 1,
          { self with
            activePublisherId := some publisherId
            totalPublisherResets
            expectedSequence := 2 })
      else do
        let toSequence ← sub sequence 1
        let totalGapsDetected ← add self.totalGapsDetected 1
        some (.gap 1 sequence 1 toSequence,
          { self with
            activePublisherId := some publisherId
            totalPublisherResets
            expectedSequence := 1
            totalGapsDetected })
    else if sequence = self.expectedSequence then do
      let expectedSequence ← add self.expectedSequence 1
      some (.inOrder sequence, { self with expectedSequence })
    else if sequence < self.expectedSequence then do
      let totalDuplicatesDetected ← add self.totalDuplicatesDetected 1
      some (.duplicateOrOld sequence self.expectedSequence, { self with totalDuplicatesDetected })
    else do
      let toSequence ← sub sequence 1
      let totalGapsDetected ← add self.totalGapsDetected 1
      some (.gap self.expectedSequence sequence self.expectedSequence toSequence,
        { self with totalGapsDetected })

/-- The frame leaves a gap behind the sequences accepted of its publisher. -/
def Skips (t : StreamSequenceTracker) (publisherId sequence : UInt64) : Prop :=
  sequence ≠ t.expectedFor publisherId ∧
    (t.activePublisherId = some publisherId → t.expectedFor publisherId < sequence)

/-- What `observe` adds and subtracts stays in range. -/
structure InRange (t : StreamSequenceTracker) (publisherId sequence : UInt64) : Prop where
  reset : t.activePublisherId ≠ none → t.activePublisherId ≠ some publisherId →
    t.totalPublisherResets.toNat + 1 < 2 ^ 64
  inOrder : sequence = t.expectedFor publisherId → sequence.toNat + 1 < 2 ^ 64
  duplicate : t.activePublisherId = some publisherId → sequence < t.expectedFor publisherId →
    t.totalDuplicatesDetected.toNat + 1 < 2 ^ 64
  gap : t.Skips publisherId sequence → 1 ≤ sequence ∧ t.totalGapsDetected.toNat + 1 < 2 ^ 64

/-- The gap branch: `sequence - 1`, and one more gap. -/
theorem gap_guarded {α : Type} {s gaps : UInt64} {f : UInt64 → UInt64 → Option α} {a : α}
    (hf : f (s - 1) (gaps + 1) = some a) :
    Guarded (do f (← sub s 1) (← add gaps 1)) (1 ≤ s ∧ gaps.toNat + 1 < 2 ^ 64) a :=
  (Guarded.sub s 1).bind (Guarded.succ hf)

variable {t : StreamSequenceTracker} {p s : UInt64}

/-- Before the first frame of any publisher. -/
theorem inRange_unstarted (unstarted : t.activePublisherId = none) :
    t.InRange p s ↔ (s ≠ 1 → 1 ≤ s ∧ t.totalGapsDetected.toNat + 1 < 2 ^ 64) := by
  have hexp : t.expectedFor p = 1 := by simp [expectedFor, unstarted]
  constructor
  · intro h hone
    exact h.gap ⟨by rw [hexp]; exact hone, by simp [unstarted]⟩
  · intro h
    refine ⟨by simp [unstarted], fun hfirst => ?_, by simp [unstarted], fun hskips => ?_⟩
    · rw [hfirst, hexp]
      decide
    · exact h fun hone => hskips.1 (hone.trans hexp.symm)

/-- A frame of a publisher that takes over. -/
theorem inRange_takeover (started : t.activePublisherId ≠ none) (other : t.activePublisherId ≠ some p) :
    t.InRange p s ↔ t.totalPublisherResets.toNat + 1 < 2 ^ 64 ∧
      (s ≠ 1 → 1 ≤ s ∧ t.totalGapsDetected.toNat + 1 < 2 ^ 64) := by
  have hexp : t.expectedFor p = 1 := expectedFor_inactive other
  constructor
  · intro h
    refine ⟨h.reset started other, fun hone => ?_⟩
    exact h.gap ⟨by rw [hexp]; exact hone, fun h' => absurd h' other⟩
  · rintro ⟨hreset, hgap⟩
    refine ⟨fun _ _ => hreset, fun hfirst => ?_, fun h' => absurd h' other, fun hskips => ?_⟩
    · rw [hfirst, hexp]
      decide
    · exact hgap fun hone => hskips.1 (hone.trans hexp.symm)

/-- A frame of the active publisher. -/
theorem inRange_active (active : t.activePublisherId = some p) :
    t.InRange p s ↔ (s = t.expectedSequence → s.toNat + 1 < 2 ^ 64) ∧
      (s < t.expectedSequence → t.totalDuplicatesDetected.toNat + 1 < 2 ^ 64) ∧
      (t.expectedSequence < s → 1 ≤ s ∧ t.totalGapsDetected.toNat + 1 < 2 ^ 64) := by
  have hexp : t.expectedFor p = t.expectedSequence := expectedFor_active active
  constructor
  · rintro ⟨-, hinOrder, hduplicate, hgap⟩
    rw [hexp] at hinOrder hduplicate
    refine ⟨hinOrder, hduplicate active, fun hlt => hgap ⟨?_, fun _ => ?_⟩⟩
    · rw [hexp]
      rintro rfl
      exact UInt64.lt_irrefl _ hlt
    · rw [hexp]
      exact hlt
  · rintro ⟨hinOrder, hduplicate, hgap⟩
    refine ⟨fun _ h' => absurd active h', ?_, fun _ => ?_, fun hskips => hgap ?_⟩
    · rw [hexp]
      exact hinOrder
    · rw [hexp]
      exact hduplicate
    · rw [← hexp]
      exact hskips.2 active

/-- **Observe**: the four branches of a publisher that is not the active one, and the three of
the one that is. -/
theorem observeChecked_guarded (t : StreamSequenceTracker) (p s : UInt64) :
    Guarded (t.observeChecked p s) (t.InRange p s) (t.observe p s) := by
  unfold observeChecked observe
  cases hactive : t.activePublisherId with
  | none =>
    dsimp only
    by_cases hone : s = 1
    · rw [if_pos hone, if_pos hone]
      apply (Guarded.pure _).congr
      simp [inRange_unstarted hactive, hone]
    · rw [if_neg hone, if_neg hone]
      apply (gap_guarded rfl).congr
      simp [inRange_unstarted hactive, hone]
  | some a =>
    dsimp only
    by_cases ha : a ≠ p
    · have hother : t.activePublisherId ≠ some p := by simpa [hactive] using ha
      have hstarted : t.activePublisherId ≠ none := by simp [hactive]
      rw [if_pos ha, if_pos ha]
      by_cases hone : s = 1
      · simp only [if_pos hone]
        apply (Guarded.succ (by rfl)).congr
        simp [inRange_takeover hstarted hother, hone]
      · simp only [if_neg hone]
        apply ((Guarded.add _ 1).bind (gap_guarded rfl)).congr
        simp [inRange_takeover hstarted hother, hone]
    · obtain rfl : a = p := not_not.mp ha
      rw [if_neg ha, if_neg ha]
      by_cases heq : s = t.expectedSequence
      · rw [if_pos heq, if_pos heq]
        apply (Guarded.succ (by rfl)).congr
        simp [inRange_active hactive, heq]
      · rw [if_neg heq, if_neg heq]
        by_cases hlt : s < t.expectedSequence
        · rw [if_pos hlt, if_pos hlt]
          apply (Guarded.succ (by rfl)).congr
          simp [inRange_active hactive, heq, hlt, UInt64.lt_asymm hlt]
        · have hgt : t.expectedSequence < s := UInt64.lt_of_le_of_ne (UInt64.not_lt.mp hlt) (Ne.symm heq)
          rw [if_neg hlt, if_neg hlt]
          apply (gap_guarded rfl).congr
          simp [inRange_active hactive, heq, hlt, hgt]

end StreamSequenceTracker

/-! ## The engine -/

/-- The loop of `drain_contiguous`, checked. -/
def drainFromChecked (current : UInt64) (buffered : OrderedMap UInt64 OwnedFrame) :
    Option (List OwnedFrame × OrderedMap UInt64 OwnedFrame) :=
  match _h : buffered[current]? with
  | none => some ([], buffered)
  | some frame => do
    let next ← add current 1
    let (res, buffered) ← drainFromChecked next (buffered.erase current)
    some (frame :: res, buffered)
termination_by buffered.size
decreasing_by exact OrderedMap.size_erase_lt (by assumption)

/-- The loop stops at the last `u64` if it gets there. -/
theorem drainFromChecked_guarded (c : UInt64) (buffered : OrderedMap UInt64 OwnedFrame) :
    Guarded (drainFromChecked c buffered) (∃ m, c ≤ m ∧ buffered[m]? = none) (drainFrom c buffered) := by
  induction hsize : buffered.size using Nat.strongRecOn generalizing c buffered with
  | ind n ih =>
    cases h : buffered[c]? with
    | none =>
      have hstop : drainFromChecked c buffered = some ([], buffered) := by
        rw [drainFromChecked]
        split
        · rfl
        · simp_all
      rw [hstop, drainFrom_none h]
      exact (Guarded.pure _).congr (iff_of_true trivial ⟨c, UInt64.le_refl c, h⟩)
    | some frame =>
      have hnext : drainFromChecked c buffered = (do
          let next ← add c 1
          let (res, buffered) ← drainFromChecked next (buffered.erase c)
          some (frame :: res, buffered)) := by
        rw [drainFromChecked]
        split
        · simp_all
        · simp_all
      have hrest := ih _ (hsize ▸ OrderedMap.size_erase_lt h) (c + 1) (buffered.erase c) rfl
      rw [hnext, drainFrom_some h]
      refine ((Guarded.add c 1).bind (hrest.map (by rfl))).congr ?_
      rw [UInt64.toNat_one]
      constructor
      · rintro ⟨hfits, m, hm, hnone⟩
        rw [UInt64.le_iff_toNat_le, Counter.toNat_succ hfits] at hm
        rw [OrderedMap.get_erase, if_neg (by rintro rfl; omega)] at hnone
        refine ⟨m, ?_, hnone⟩
        rw [UInt64.le_iff_toNat_le]
        omega
      · rintro ⟨m, hm, hnone⟩
        have hne : m ≠ c := by
          rintro rfl
          rw [h] at hnone
          cases hnone
        have hnat := UInt64.toNat_inj.ne.mpr hne
        rw [UInt64.le_iff_toNat_le] at hm
        have hm64 := m.toNat_lt
        have hfits : c.toNat + 1 < 2 ^ 64 := by omega
        refine ⟨hfits, m, ?_, ?_⟩
        · rw [UInt64.le_iff_toNat_le, Counter.toNat_succ hfits]
          omega
        · rw [OrderedMap.get_erase, if_neg hne]
          exact hnone

namespace RecoveryEngine

/-- `create_replay_request`, checked. -/
def createReplayRequestChecked (self : RecoveryEngine) (now : Instant) (fromSequence toSequence : UInt64) :
    Option (Result ReplayRequestPayload × RecoveryEngine) := do
  let rangeLen ← add (saturatingSub toSequence fromSequence) 1
  if rangeLen > self.config.maxReplayRange then
    some (.error (.protocol .replayRangeInvalid
      s!"Requested range {rangeLen} exceeds maximum allowed {self.config.maxReplayRange}"), self)
  else if self.outstandingRequests.size ≥ self.config.maxOutstandingRequests.toNat then
    some (.error (.protocol .backpressure "Exceeded max outstanding replay requests"), self)
  else
    let requestId := self.nextRequestId
    let nextRequestId ← add self.nextRequestId 1
    let req : ActiveReplayRequest :=
      { requestId, fromSequence, toSequence
        createdAt := now
        lastSentAt := now
        retriesAttempted := 0
        receivedSequences := [] }
    some (.ok { requestId, fromSequence, toSequence },
      { self with
        nextRequestId
        outstandingRequests := self.outstandingRequests.insert requestId req
        state := .recovering })

/-- `drain_contiguous`, checked. -/
def drainContiguousChecked (self : RecoveryEngine) (startSeq : UInt64) :
    Option (List OwnedFrame × RecoveryEngine) := do
  let (res, buffered) ← drainFromChecked startSeq self.bufferedOutOfOrder
  some (res, { self with bufferedOutOfOrder := buffered })

/-- The range of a request is counted, and an accepted one takes the next id. -/
def RequestInRange (eng : RecoveryEngine) (a b : UInt64) : Prop :=
  (saturatingSub b a).toNat + 1 < 2 ^ 64 ∧ (¬ eng.Refuses a b → eng.nextRequestId.toNat + 1 < 2 ^ 64)

/-- Only a gap makes a request. -/
def AsksInRange (eng : RecoveryEngine) : SequenceStatus → Prop
  | .gap _ _ fromSequence toSequence => eng.RequestInRange fromSequence toSequence
  | _ => True

theorem createReplayRequestChecked_guarded (eng : RecoveryEngine) (now : Instant) (a b : UInt64) :
    Guarded (eng.createReplayRequestChecked now a b) (eng.RequestInRange a b)
      (eng.createReplayRequest now a b) := by
  refine (Guarded.add _ 1).bind ?_
  unfold createReplayRequest
  dsimp only
  by_cases hrange : saturatingSub b a + 1 > eng.config.maxReplayRange
  · rw [if_pos hrange, if_pos hrange]
    exact (Guarded.pure _).congr (iff_of_true trivial fun h => absurd (Or.inl hrange) h)
  by_cases hroom : eng.outstandingRequests.size ≥ eng.config.maxOutstandingRequests.toNat
  · rw [if_neg hrange, if_pos hroom, if_neg hrange, if_pos hroom]
    exact (Guarded.pure _).congr (iff_of_true trivial fun h => absurd (Or.inr hroom) h)
  · rw [if_neg hrange, if_neg hroom, if_neg hrange, if_neg hroom]
    refine (Guarded.succ (by rfl)).congr ?_
    have haccepted : ¬ eng.Refuses a b := not_or.mpr ⟨hrange, hroom⟩
    exact ⟨fun h _ => h, fun h => h haccepted⟩

theorem drainContiguousChecked_guarded (eng : RecoveryEngine) (c : UInt64) :
    Guarded (eng.drainContiguousChecked c) (∃ m, c ≤ m ∧ eng.bufferedOutOfOrder[m]? = none)
      (eng.drainContiguous c) :=
  (drainFromChecked_guarded c eng.bufferedOutOfOrder).map rfl

end RecoveryEngine

/-! ## The receiver -/

namespace StreamReceiver

/-- The body of the loop over the drained frames, checked. -/
def noteDrainedChecked (self : StreamReceiver) (c : OwnedFrame) : Option StreamReceiver := do
  let nextExpected ← add c.header.sequence 1
  some { self with
    highestDeliveredSequence := c.header.sequence
    tracker := self.tracker.advanceExpected nextExpected }

/-- `ReliableOrdered`, in order, checked. -/
def deliverInOrderChecked (self : StreamReceiver) (frame : OwnedFrame) (sequence : UInt64) :
    Option (Delivery × StreamReceiver) := do
  let nextExpected ← add sequence 1
  let (contiguous, recovery) ← self.recovery.drainContiguousChecked nextExpected
  let self := { self with highestDeliveredSequence := sequence, recovery }
  let self ← contiguous.foldlM noteDrainedChecked self
  some (.ok (frame :: contiguous, none), self)

/-- `ReliableOrdered`, gap, checked. -/
def bufferGapChecked (self : StreamReceiver) (now : Instant) (frame : OwnedFrame)
    (fromSequence toSequence : UInt64) : Option (Delivery × StreamReceiver) := do
  let recovery := self.recovery.bufferFrame frame
  match ← recovery.createReplayRequestChecked now fromSequence toSequence with
  | (.error e, recovery) => some (.error e, { self with recovery })
  | (.ok replayReq, recovery) => some (.ok ([], some replayReq), { self with recovery })

def processAtLeastOnceChecked (self : StreamReceiver) (now : Instant) (frame : OwnedFrame) (seq : UInt64) :
    SequenceStatus → Option (Delivery × StreamReceiver)
  | .inOrder sequence =>
    some (.ok ([frame], none),
      { self with highestDeliveredSequence := max self.highestDeliveredSequence sequence })
  | .gap _ _ fromSequence toSequence => do
    match ← self.recovery.createReplayRequestChecked now fromSequence toSequence with
    | (.error e, recovery) => some (.error e, { self with recovery })
    | (.ok replayReq, recovery) =>
      some (.ok ([frame], some replayReq),
        { self with
          recovery
          highestDeliveredSequence := max self.highestDeliveredSequence seq })
  | .duplicateOrOld _ _ => some (.ok ([frame], none), self)
  | .publisherReset _ _ initialSequence =>
    some (.ok ([frame], none), { self with highestDeliveredSequence := initialSequence })

def processReliableOrderedChecked (self : StreamReceiver) (now : Instant) (frame : OwnedFrame) :
    SequenceStatus → Option (Delivery × StreamReceiver)
  | .inOrder sequence => self.deliverInOrderChecked frame sequence
  | .gap _ _ fromSequence toSequence => self.bufferGapChecked now frame fromSequence toSequence
  | .duplicateOrOld _ _ => some (.ok ([], none), self)
  | .publisherReset _ _ initialSequence =>
    some (.ok ([frame], none),
      { self with recovery := self.recovery.reset, highestDeliveredSequence := initialSequence })

/-- `process_data_frame`, checked. -/
def processDataFrameChecked (self : StreamReceiver) (now : Instant) (frame : OwnedFrame) :
    Option (Delivery × StreamReceiver) := do
  let pubId := frame.header.publisherId
  let seq := frame.header.sequence
  let (status, tracker) ← self.tracker.observeChecked pubId seq
  let self := { self with tracker }
  let key : DuplicateKey := ⟨self.streamId, pubId, seq⟩
  match self.mode with
  | .bestEffort =>
    some (.ok ([frame], none),
      { self with highestDeliveredSequence := max self.highestDeliveredSequence seq })
  | .latest =>
    if seq > self.highestDeliveredSequence then
      some (.ok ([frame], none), { self with highestDeliveredSequence := seq })
    else some (.ok ([], none), self)
  | .atLeastOnce => self.processAtLeastOnceChecked now frame seq status
  | .reliableOrdered =>
    let (duplicate, dedup) := self.dedup.isDuplicateAndRecord key
    let self := { self with dedup }
    if duplicate then some (.ok ([], none), self)
    else self.processReliableOrderedChecked now frame status

/-- Some sequence above is not buffered, so a drain stops before the last `u64`. -/
def Stops (buffered : OrderedMap UInt64 OwnedFrame) (s : UInt64) : Prop :=
  ∃ m, s < m ∧ buffered[m]? = none

theorem noteDrainedChecked_guarded (rx : StreamReceiver) (c : OwnedFrame) :
    Guarded (rx.noteDrainedChecked c) (c.seq.toNat + 1 < 2 ^ 64) (rx.noteDrained c) :=
  Guarded.succ rfl

/-- The frame's own successor, the drain and the loop over what it takes. -/
theorem deliverInOrderChecked_guarded {rx : StreamReceiver}
    (keyed : OrderedMap.Keyed OwnedFrame.seq rx.recovery.bufferedOutOfOrder) (frame : OwnedFrame)
    (s : UInt64) :
    Guarded (rx.deliverInOrderChecked frame s) (Stops rx.recovery.bufferedOutOfOrder s)
      (rx.deliverInOrder frame s) := by
  have hloop (start : StreamReceiver) := Guarded.foldlM (fun _ => True) (fun _ _ _ => trivial)
    (fun rx c _ => noteDrainedChecked_guarded rx c) (s := start) trivial
    (drainFrom (s + 1) rx.recovery.bufferedOutOfOrder).1
  refine ((Guarded.add s 1).bind ((rx.recovery.drainContiguousChecked_guarded (s + 1)).bind
    ((hloop _).map (by rfl)))).congr ?_
  rw [UInt64.toNat_one]
  constructor
  · rintro ⟨hfits, ⟨m, hm, hnone⟩, -⟩
    refine ⟨m, ?_, hnone⟩
    rw [UInt64.le_iff_toNat_le, Counter.toNat_succ hfits] at hm
    rw [UInt64.lt_iff_toNat_lt]
    omega
  · rintro ⟨m, hm, hnone⟩
    have hlt := UInt64.lt_iff_toNat_lt.mp hm
    have hm64 := m.toNat_lt
    obtain ⟨n, hdrained⟩ := drainFrom_drained keyed (c := s + 1)
    have hstretch := hdrained.stretch hm hnone
    refine ⟨by omega, ⟨m, ?_, hnone⟩, ?_⟩
    · rw [UInt64.le_iff_toNat_le, Counter.toNat_succ_of_lt hm]
      omega
    · -- every drained frame lies inside the stretch
      apply Runs.each_of_forall
      intro c hc
      have hmem : c.seq.toNat ∈ List.range' (s.toNat + 1) n := by
        rw [← hstretch.seqs]
        exact List.mem_map_of_mem hc
      have := hstretch.fits
      rw [List.mem_range'_1] at hmem
      omega

/-- The handling of an accepted or refused request does no arithmetic of its own. -/
theorem bufferGapChecked_guarded (rx : StreamReceiver) (now : Instant) (frame : OwnedFrame) (a b : UInt64) :
    Guarded (rx.bufferGapChecked now frame a b) (rx.recovery.RequestInRange a b)
      (rx.bufferGap now frame a b) := by
  refine ((rx.recovery.bufferFrame frame).createReplayRequestChecked_guarded now a b).map ?_
  unfold bufferGap
  dsimp only
  rcases (rx.recovery.bufferFrame frame).createReplayRequest now a b with ⟨_ | _, _⟩ <;> rfl

theorem processAtLeastOnceChecked_guarded (rx : StreamReceiver) (now : Instant) (frame : OwnedFrame)
    (seq : UInt64) (status : SequenceStatus) :
    Guarded (rx.processAtLeastOnceChecked now frame seq status) (rx.recovery.AsksInRange status)
      (rx.processAtLeastOnce now frame seq status) := by
  cases status with
  | inOrder sequence => exact .pure _
  | gap expected received a b =>
    refine (rx.recovery.createReplayRequestChecked_guarded now a b).map ?_
    unfold processAtLeastOnce
    dsimp only
    rcases rx.recovery.createReplayRequest now a b with ⟨_ | _, _⟩ <;> rfl
  | duplicateOrOld sequence expected => exact .pure _
  | publisherReset oldPublisher newPublisher initialSequence => exact .pure _

theorem processReliableOrderedChecked_guarded (rx : StreamReceiver)
    (keyed : OrderedMap.Keyed OwnedFrame.seq rx.recovery.bufferedOutOfOrder) (now : Instant)
    (frame : OwnedFrame) (status : SequenceStatus) :
    Guarded (rx.processReliableOrderedChecked now frame status)
      (rx.recovery.AsksInRange status ∧
        ∀ s, status = .inOrder s → Stops rx.recovery.bufferedOutOfOrder s)
      (rx.processReliableOrdered now frame status) := by
  cases status with
  | inOrder sequence =>
    apply (deliverInOrderChecked_guarded keyed frame sequence).congr
    simp [RecoveryEngine.AsksInRange]
  | gap expected received a b =>
    apply (rx.bufferGapChecked_guarded now frame a b).congr
    simp [RecoveryEngine.AsksInRange]
  | duplicateOrOld sequence expected =>
    apply (Guarded.pure _).congr
    simp [RecoveryEngine.AsksInRange]
  | publisherReset oldPublisher newPublisher initialSequence =>
    apply (Guarded.pure _).congr
    simp [RecoveryEngine.AsksInRange]

/-- The mode makes a request for the frame. -/
def Asks (rx : StreamReceiver) (frame : OwnedFrame) : Prop :=
  (rx.mode = .atLeastOnce ∨ rx.mode = .reliableOrdered ∧ rx.keyOf frame ∉ rx.dedup.recentKeys) ∧
    rx.tracker.Skips frame.header.publisherId frame.seq ∧
    ¬ rx.recovery.Refuses (rx.expectedOf frame) (frame.seq - 1)

/-- The mode drains the buffer behind the frame. -/
def Drains (rx : StreamReceiver) (frame : OwnedFrame) : Prop :=
  rx.mode = .reliableOrdered ∧ rx.Accepts frame ∧
    (rx.tracker.activePublisherId = none ∨
      rx.tracker.activePublisherId = some frame.header.publisherId)

/-- What a DATA frame makes the receiver compute stays in range. -/
structure InRange (rx : StreamReceiver) (frame : OwnedFrame) : Prop where
  tracker : rx.tracker.InRange frame.header.publisherId frame.seq
  request : rx.Asks frame → rx.recovery.nextRequestId.toNat + 1 < 2 ^ 64
  drain : rx.Drains frame → Stops rx.recovery.bufferedOutOfOrder frame.seq

section Statuses

variable {t : StreamSequenceTracker} {p s : UInt64}

/-- `to - from + 1` is in range behind a frame of sequence at least 1. -/
theorem span_in_range (a : UInt64) (hs : 1 ≤ s) : (saturatingSub (s - 1) a).toNat + 1 < 2 ^ 64 := by
  rw [UInt64.le_iff_toNat_le, UInt64.toNat_one] at hs
  have hpos : 0 < s := UInt64.lt_iff_toNat_lt.mpr hs
  have hpred := Counter.toNat_pred hpos
  have hs64 := s.toNat_lt
  have hle : (saturatingSub (s - 1) a).toNat ≤ (s - 1).toNat := by
    unfold saturatingSub
    split
    · exact Nat.zero_le _
    · rename_i hge
      rw [UInt64.toNat_sub_of_le _ _ (UInt64.not_lt.mp hge)]
      exact Nat.sub_le _ _
  omega

/-- A frame makes a request if it skips ahead, and only then. -/
theorem asksInRange_iff (eng : RecoveryEngine) (hrange : t.InRange p s) :
    eng.AsksInRange (t.observe p s).1 ↔
      (t.Skips p s → ¬ eng.Refuses (t.expectedFor p) (s - 1) → eng.nextRequestId.toNat + 1 < 2 ^ 64) := by
  by_cases hexp : s = t.expectedFor p
  · refine iff_of_true ?_ fun h => absurd hexp h.1
    by_cases live : t.activePublisherId = none ∨ t.activePublisherId = some p
    · rw [StreamSequenceTracker.observe_status_same live hexp]
      trivial
    · obtain ⟨started, other⟩ := not_or.mp live
      rw [(StreamSequenceTracker.observe_status_reset started other hexp).2]
      trivial
  · rcases StreamSequenceTracker.observe_status_other hexp with ⟨status, ahead⟩ | ⟨status, same, behind⟩
    · rw [status]
      constructor
      · exact fun h _ => h.2
      · intro h
        exact ⟨span_in_range _ (hrange.gap ⟨hexp, ahead⟩).1, h ⟨hexp, ahead⟩⟩
    · rw [status]
      refine iff_of_true trivial fun h => ?_
      exact absurd (UInt64.lt_trans behind (h.2 same)) (UInt64.lt_irrefl _)

/-- What a status in order tells. -/
theorem observe_inOrder {s' : UInt64} (h : (t.observe p s).1 = .inOrder s') :
    s' = s ∧ s = t.expectedFor p ∧ (t.activePublisherId = none ∨ t.activePublisherId = some p) := by
  by_cases hexp : s = t.expectedFor p
  · by_cases live : t.activePublisherId = none ∨ t.activePublisherId = some p
    · rw [StreamSequenceTracker.observe_status_same live hexp] at h
      cases h
      exact ⟨rfl, hexp, live⟩
    · obtain ⟨started, other⟩ := not_or.mp live
      rw [(StreamSequenceTracker.observe_status_reset started other hexp).2] at h
      cases h
  · rcases StreamSequenceTracker.observe_status_other hexp with ⟨status, -⟩ | ⟨status, -⟩ <;>
      rw [status] at h <;> cases h

end Statuses

/-- A frame that neither asks nor drains. -/
theorem inRange_quiet {rx : StreamReceiver} {frame : OwnedFrame} (asks : ¬ rx.Asks frame)
    (drains : ¬ rx.Drains frame) :
    rx.tracker.InRange frame.header.publisherId frame.seq ↔ rx.InRange frame :=
  ⟨fun h => ⟨h, fun h' => absurd h' asks, fun h' => absurd h' drains⟩, InRange.tracker⟩

theorem processDataFrameChecked_atLeastOnce {rx : StreamReceiver} (mode : rx.mode = .atLeastOnce)
    (now : Instant) (frame : OwnedFrame) :
    Guarded (rx.processDataFrameChecked now frame) (rx.InRange frame) (rx.processDataFrame now frame) := by
  have hobserve := rx.tracker.observeChecked_guarded frame.header.publisherId frame.seq
  obtain ⟨streamId, _, tracker, dedup, recovery, highest⟩ := rx
  subst mode
  have hprocess := processAtLeastOnceChecked_guarded
    ⟨streamId, .atLeastOnce, (tracker.observe frame.header.publisherId frame.seq).2, dedup, recovery, highest⟩
    now frame frame.seq (tracker.observe frame.header.publisherId frame.seq).1
  refine (hobserve.bind hprocess).congr ?_
  constructor
  · rintro ⟨htracker, hasks⟩
    refine ⟨htracker, fun h => ?_, fun h => ?_⟩
    · exact (asksInRange_iff recovery htracker).mp hasks h.2.1 h.2.2
    · cases h.1
  · intro h
    refine ⟨h.tracker, (asksInRange_iff recovery h.tracker).mpr fun skips accepted => ?_⟩
    exact h.request ⟨Or.inl rfl, skips, accepted⟩

theorem processDataFrameChecked_reliableOrdered {rx : StreamReceiver} (mode : rx.mode = .reliableOrdered)
    (keyed : OrderedMap.Keyed OwnedFrame.seq rx.recovery.bufferedOutOfOrder) (now : Instant)
    (frame : OwnedFrame) :
    Guarded (rx.processDataFrameChecked now frame) (rx.InRange frame) (rx.processDataFrame now frame) := by
  have hobserve := rx.tracker.observeChecked_guarded frame.header.publisherId frame.seq
  obtain ⟨streamId, _, tracker, dedup, recovery, highest⟩ := rx
  subst mode
  by_cases dup : (dedup.isDuplicateAndRecord ⟨streamId, frame.header.publisherId, frame.seq⟩).1 = true
  · -- the observation counts, whether or not the frame is then suppressed
    have hknown := DuplicateFilter.isDuplicateAndRecord_fst.mp dup
    refine (hobserve.map ?_).congr (inRange_quiet ?_ ?_)
    · unfold processDataFrame
      dsimp only
      rw [if_pos dup, if_pos dup]
    · rintro ⟨h | h, -⟩
      · cases h
      · exact h.2 hknown
    · rintro ⟨-, h, -⟩
      exact h.1 hknown
  · have hfresh := mt DuplicateFilter.isDuplicateAndRecord_fst.mpr dup
    have hprocess := processReliableOrderedChecked_guarded ⟨streamId, .reliableOrdered,
      (tracker.observe frame.header.publisherId frame.seq).2,
      (dedup.isDuplicateAndRecord ⟨streamId, frame.header.publisherId, frame.seq⟩).2, recovery, highest⟩
      keyed now frame (tracker.observe frame.header.publisherId frame.seq).1
    refine (hobserve.bind (Guarded.otherwise dup hprocess)).congr ?_
    constructor
    · rintro ⟨htracker, hasks, hstops⟩
      refine ⟨htracker, fun h => ?_, fun h => ?_⟩
      · exact (asksInRange_iff recovery htracker).mp hasks h.2.1 h.2.2
      · obtain ⟨-, ⟨-, hexp⟩, live⟩ := h
        exact hstops _ (StreamSequenceTracker.observe_status_same live hexp)
    · intro h
      refine ⟨h.tracker, (asksInRange_iff recovery h.tracker).mpr fun skips accepted => ?_, fun s hs => ?_⟩
      · exact h.request ⟨Or.inr ⟨rfl, hfresh⟩, skips, accepted⟩
      · obtain ⟨rfl, hexp, live⟩ := observe_inOrder hs
        exact h.drain ⟨rfl, ⟨hfresh, hexp⟩, live⟩

/-- **Step**: a DATA frame is processed within the range of `u64` exactly if it is in range. -/
theorem processDataFrameChecked_guarded {rx : StreamReceiver}
    (keyed : OrderedMap.Keyed OwnedFrame.seq rx.recovery.bufferedOutOfOrder) (now : Instant)
    (frame : OwnedFrame) :
    Guarded (rx.processDataFrameChecked now frame) (rx.InRange frame) (rx.processDataFrame now frame) := by
  cases hmode : rx.mode with
  | bestEffort =>
    have hobserve := rx.tracker.observeChecked_guarded frame.header.publisherId frame.seq
    obtain ⟨_, _, _, _, _, _⟩ := rx
    subst hmode
    refine (hobserve.map ?_).congr (inRange_quiet ?_ ?_)
    · rfl
    · simp [Asks]
    · simp [Drains]
  | latest =>
    have hobserve := rx.tracker.observeChecked_guarded frame.header.publisherId frame.seq
    obtain ⟨_, _, _, _, _, _⟩ := rx
    subst hmode
    refine (hobserve.map ?_).congr (inRange_quiet ?_ ?_)
    · unfold processDataFrame
      dsimp only
      split <;> rfl
    · simp [Asks]
    · simp [Drains]
  | atLeastOnce => exact processDataFrameChecked_atLeastOnce hmode now frame
  | reliableOrdered => exact processDataFrameChecked_reliableOrdered hmode keyed now frame

/-- Frames are buffered under their own sequence, in every mode. -/
theorem processDataFrame_keyed {rx : StreamReceiver}
    (keyed : OrderedMap.Keyed OwnedFrame.seq rx.recovery.bufferedOutOfOrder) (now : Instant)
    (frame : OwnedFrame) :
    OrderedMap.Keyed OwnedFrame.seq (rx.processDataFrame now frame).2.recovery.bufferedOutOfOrder := by
  cases hmode : rx.mode with
  | bestEffort =>
    simp only [processDataFrame, hmode]
    exact keyed
  | latest =>
    simp only [processDataFrame, hmode]
    split <;> exact keyed
  | atLeastOnce =>
    rw [processDataFrame_atLeastOnce hmode, (processAtLeastOnce_after _ now frame frame.seq _).buffered]
    exact keyed
  | reliableOrdered =>
    have hcases := reliable_cases hmode now frame
    generalize rx.processDataFrame now frame = result at hcases ⊢
    cases hcases with
    | suppressed dup => exact keyed
    | inOrder fresh live expected =>
      obtain ⟨drained, left, n, hspec, hd⟩ := deliverInOrder_drained keyed frame
      rw [hspec.recovery]
      exact hd.keyed keyed
    | reset fresh other started first => exact OrderedMap.Keyed.empty
    | gap fresh unexpected ahead => exact bufferGap_keyed now keyed
    | old fresh same behind => exact keyed

end StreamReceiver

end Rtdp
