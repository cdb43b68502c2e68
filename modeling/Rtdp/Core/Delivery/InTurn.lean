import Rtdp.Core.Delivery.AtLeastOnce
import Rtdp.Core.Delivery.Latest
import Rtdp.Core.Delivery.ReliableOrdered

/-!
# Frames in turn

The frames of a publisher come in turn if they are numbered from 1 on, and
after a restart from 1 again under its new id. Every mode delivers such a frame
by itself and asks for nothing; they differ in the restarts they follow. The
duplicate filter of `ReliableOrdered` outlives a restart, so an id must not come
back, and the mark of `Latest` does, so there must be no restart at all.
-/

namespace Rtdp

theorem StreamReceiver.processDataFrame_bestEffort {rx : StreamReceiver} (mode : rx.mode = .bestEffort)
    (now : Instant) (frame : OwnedFrame) :
    rx.processDataFrame now frame =
      (.ok ([frame], none),
        { rx with
          tracker := (rx.tracker.observe frame.header.publisherId frame.seq).2
          highestDeliveredSequence := max rx.highestDeliveredSequence frame.seq }) := by
  obtain ⟨_, _, _, _, _, _⟩ := rx
  subst mode
  rfl

/-- Frame 1 may come after these frames, newest first. -/
def MayStart (mode : DeliveryMode) (handed : List OwnedFrame) (publisherId : UInt64) : Prop :=
  match mode with
  | .bestEffort | .atLeastOnce => True
  | .latest => handed = []
  | .reliableOrdered => ∀ f ∈ handed, f.header.publisherId ≠ publisherId

/-- The frame is the next one after these. -/
inductive Next (mode : DeliveryMode) (handed : List OwnedFrame) (frame : OwnedFrame) : Prop where
  | start (first : frame.seq = 1) (may : MayStart mode handed frame.header.publisherId)
  | go (last : OwnedFrame) (head : handed.head? = some last)
      (same : frame.header.publisherId = last.header.publisherId)
      (next : frame.seq.toNat = last.seq.toNat + 1)

/-- The publisher of the last frame. -/
def lastPublisherOf (handed : List OwnedFrame) : Option UInt64 :=
  handed.head?.map fun last => last.header.publisherId

/-- What a mode goes by, after these frames. -/
def Abreast (mode : DeliveryMode) (handed : List OwnedFrame) (rx : StreamReceiver) : Prop :=
  match mode with
  | .bestEffort => True
  | .latest => rx.highestDeliveredSequence = (handed.head?.map OwnedFrame.seq).getD 0
  | .atLeastOnce =>
    rx.tracker.activePublisherId = lastPublisherOf handed ∧
      ∀ last ∈ handed.head?, last.seq.toNat < rx.tracker.expectedSequence.toNat
  | .reliableOrdered =>
    rx.tracker.activePublisherId = lastPublisherOf handed ∧
      (∀ last ∈ handed.head?, rx.tracker.expectedSequence.toNat = last.seq.toNat + 1 ∧
        ∀ f ∈ handed, f.header.publisherId = last.header.publisherId → f.seq ≤ last.seq) ∧
      ∀ key ∈ rx.dedup.recentKeys, ∃ f ∈ handed, key.publisherId = f.header.publisherId ∧ key.sequence = f.seq

/-- A receiver that has delivered these frames, newest first, and waits for nothing. -/
structure InTurn (m : DeliveryMode) (handed : List OwnedFrame) (rx : StreamReceiver) : Prop where
  mode : rx.mode = m
  buffered : ∀ s : UInt64, rx.recovery.bufferedOutOfOrder[s]? = none
  outstanding : ∀ id : UInt64, rx.recovery.outstandingRequests[id]? = none
  abreast : Abreast m handed rx

namespace InTurn

variable {handed : List OwnedFrame} {rx : StreamReceiver} {frame : OwnedFrame}

theorem fresh (streamId : UInt64) (m : DeliveryMode) (cfg : RecoveryConfig) :
    InTurn m [] (StreamReceiver.new streamId m cfg) := by
  refine ⟨rfl, fun s => by simp, fun id => by simp, ?_⟩
  cases m with
  | bestEffort => trivial
  | latest => rfl
  | atLeastOnce => exact ⟨rfl, fun _ h => absurd h.symm (Option.some_ne_none _)⟩
  | reliableOrdered =>
    refine ⟨rfl, fun _ h => absurd h.symm (Option.some_ne_none _), fun key hkey => ?_⟩
    simp [StreamReceiver.new, DuplicateFilter.new] at hkey

/-- A frame in turn comes first of its publisher, or the tracker is at it or past it. -/
theorem tracked (active : rx.tracker.activePublisherId = lastPublisherOf handed)
    (expected : ∀ last ∈ handed.head?, last.seq.toNat < rx.tracker.expectedSequence.toNat)
    {m : DeliveryMode} (next : Next m handed frame) :
    frame.seq = rx.tracker.expectedFor frame.header.publisherId ∨
      rx.tracker.activePublisherId = some frame.header.publisherId ∧
        frame.seq < rx.tracker.expectedFor frame.header.publisherId := by
  cases next with
  | start first may =>
    by_cases same : rx.tracker.activePublisherId = some frame.header.publisherId
    · rw [StreamSequenceTracker.expectedFor_active same, first]
      obtain ⟨last, hlast, -⟩ := Option.map_eq_some_iff.mp (active.symm.trans same)
      have hpos := expected last hlast
      by_cases h : (1 : UInt64) = rx.tracker.expectedSequence
      · exact Or.inl h
      · refine Or.inr ⟨same, UInt64.lt_iff_toNat_lt.mpr ?_⟩
        have hne := UInt64.toNat_inj.not.mpr h
        rw [UInt64.toNat_one] at hne ⊢
        omega
    · rw [StreamSequenceTracker.expectedFor_inactive same]
      exact Or.inl first
  | go last head same hseq =>
    have hactive : rx.tracker.activePublisherId = some frame.header.publisherId := by
      rw [active, lastPublisherOf, head, Option.map_some, same]
    rw [StreamSequenceTracker.expectedFor_active hactive]
    have hpos := expected last head
    by_cases h : frame.seq = rx.tracker.expectedSequence
    · exact Or.inl h
    · refine Or.inr ⟨hactive, UInt64.lt_iff_toNat_lt.mpr ?_⟩
      have hne := UInt64.toNat_inj.not.mpr h
      omega

/-- A frame that comes in turn, and what one call makes of it. -/
structure Passed (m : DeliveryMode) (handed : List OwnedFrame) (frame : OwnedFrame)
    (result : Delivery × StreamReceiver) : Prop where
  outcome : result.1 = .ok ([frame], none)
  after : InTurn m (frame :: handed) result.2

theorem bestEffort (h : InTurn .bestEffort handed rx) (now : Instant) :
    Passed .bestEffort handed frame (rx.processDataFrame now frame) := by
  rw [StreamReceiver.processDataFrame_bestEffort h.mode]
  exact ⟨rfl, h.mode, h.buffered, h.outstanding, trivial⟩

theorem latest (h : InTurn .latest handed rx) (now : Instant) (next : Next .latest handed frame) :
    Passed .latest handed frame (rx.processDataFrame now frame) := by
  have hmark : rx.highestDeliveredSequence = (handed.head?.map OwnedFrame.seq).getD 0 := h.abreast
  have above : rx.highestDeliveredSequence < frame.seq := by
    rw [hmark, UInt64.lt_iff_toNat_lt]
    cases next with
    | start first may =>
      obtain rfl : handed = [] := may
      rw [first]
      decide
    | go last head same hseq =>
      rw [head, Option.map_some, Option.getD_some]
      omega
  rw [StreamReceiver.processDataFrame_latest h.mode, if_pos above]
  exact ⟨rfl, h.mode, h.buffered, h.outstanding, rfl⟩

theorem atLeastOnce (h : InTurn .atLeastOnce handed rx) (now : Instant) (next : Next .atLeastOnce handed frame)
    (room : frame.seq.toNat + 1 < 2 ^ 64) :
    Passed .atLeastOnce handed frame (rx.processDataFrame now frame) := by
  obtain ⟨active, expected⟩ := h.abreast
  obtain ⟨tracker, htracker⟩ : ∃ t, t = (rx.tracker.observe frame.header.publisherId frame.seq).2 := ⟨_, rfl⟩
  have hactive : tracker.activePublisherId = some frame.header.publisherId := by
    rw [htracker]
    exact StreamSequenceTracker.observe_active
  have tracked := tracked active expected next
  have hexpected : frame.seq.toNat < tracker.expectedSequence.toNat := by
    rw [htracker, StreamSequenceTracker.observe_expected]
    split
    · rename_i heq
      rw [← heq, Counter.toNat_succ room]
      exact Nat.lt_succ_self _
    · rename_i hne
      obtain ⟨-, behind⟩ := tracked.resolve_left hne
      exact UInt64.lt_iff_toNat_lt.mp behind
  have abreast : Abreast .atLeastOnce (frame :: handed) { rx with tracker } := by
    refine ⟨hactive, fun last hlast => ?_⟩
    obtain rfl := Option.some.inj hlast
    exact hexpected
  rw [StreamReceiver.processDataFrame_atLeastOnce h.mode, ← htracker]
  rcases tracked with heq | ⟨same, behind⟩
  · by_cases live : rx.tracker.activePublisherId = none ∨ rx.tracker.activePublisherId = some frame.header.publisherId
    · rw [StreamSequenceTracker.observe_status_same live heq]
      exact ⟨rfl, h.mode, h.buffered, h.outstanding, abreast⟩
    · obtain ⟨started, other⟩ := not_or.mp live
      rw [(StreamSequenceTracker.observe_status_reset started other heq).2]
      exact ⟨rfl, h.mode, h.buffered, h.outstanding, abreast⟩
  · rcases StreamSequenceTracker.observe_status_other (UInt64.ne_of_lt behind) with ⟨-, ahead⟩ | ⟨status, -, -⟩
    · exact absurd (UInt64.lt_trans behind (ahead same)) (UInt64.lt_irrefl _)
    · rw [status]
      exact ⟨rfl, h.mode, h.buffered, h.outstanding, abreast⟩

/-- The filter does not know a frame in turn, and the tracker is at it. -/
theorem accepts (h : InTurn .reliableOrdered handed rx) (next : Next .reliableOrdered handed frame) :
    rx.Accepts frame := by
  obtain ⟨active, expected, recorded⟩ := h.abreast
  have tracked := tracked active (fun last hlast => by have := (expected last hlast).1; omega) next
  have fresh : ∀ f ∈ handed, f.header.publisherId = frame.header.publisherId → f.seq ≠ frame.seq := by
    intro f hf hsame hseq
    cases next with
    | start first may => exact may f hf hsame
    | go last head same hnext =>
      have hle := UInt64.le_iff_toNat_le.mp ((expected last head).2 f hf (hsame.trans same))
      rw [hseq] at hle
      omega
  constructor
  · intro hkey
    obtain ⟨f, hf, hpublisher, hsequence⟩ := recorded _ hkey
    exact fresh f hf hpublisher.symm hsequence.symm
  · rcases tracked with heq | ⟨same, behind⟩
    · exact heq
    · -- the tracker is past a first frame only if its publisher has been there
      obtain ⟨last, hlast, hpublisher⟩ := Option.map_eq_some_iff.mp (active.symm.trans same)
      rw [StreamSequenceTracker.expectedFor_active same, UInt64.lt_iff_toNat_lt] at behind
      have hexpected := (expected last hlast).1
      cases next with
      | start first may => exact absurd hpublisher (may last (List.mem_of_mem_head? hlast))
      | go last' head same' hnext =>
        obtain rfl := Option.some.inj (hlast.symm.trans head)
        omega

theorem reliableOrdered (h : InTurn .reliableOrdered handed rx) (now : Instant)
    (next : Next .reliableOrdered handed frame) (room : frame.seq.toNat + 1 < 2 ^ 64) :
    Passed .reliableOrdered handed frame (rx.processDataFrame now frame) := by
  obtain ⟨fresh, hexpected⟩ := h.accepts next
  obtain ⟨-, expected, recorded⟩ := h.abreast
  have highest : ∀ f ∈ handed, f.header.publisherId = frame.header.publisherId → f.seq ≤ frame.seq := by
    intro f hf hsame
    cases next with
    | start first may => exact absurd hsame (may f hf)
    | go last head same hnext =>
      have hle := UInt64.le_iff_toNat_le.mp ((expected last head).2 f hf (hsame.trans same))
      exact UInt64.le_iff_toNat_le.mpr (by omega)
  -- whatever the case, the receiver agrees with the observed one on tracker and filter
  have abreast : ∀ after : StreamReceiver, after.dedup = (rx.observed frame).dedup →
      after.tracker.activePublisherId = some frame.header.publisherId →
      after.tracker.expectedSequence = (rx.observed frame).tracker.expectedSequence →
      Abreast .reliableOrdered (frame :: handed) after := by
    intro after hdedup hactive htracker
    refine ⟨hactive, fun last hlast => ?_, fun key hkey => ?_⟩
    · obtain rfl := Option.some.inj hlast
      refine ⟨?_, List.forall_mem_cons.mpr ⟨fun _ => UInt64.le_refl _, highest⟩⟩
      rw [htracker, StreamReceiver.observed_expected, if_pos hexpected, ← hexpected]
      exact Counter.toNat_succ room
    · rw [hdedup] at hkey
      rcases StreamReceiver.observed_recorded hkey with rfl | hkey
      · exact ⟨frame, List.mem_cons_self, rfl, rfl⟩
      · obtain ⟨f, hf, hfields⟩ := recorded key hkey
        exact ⟨f, List.mem_cons_of_mem _ hf, hfields⟩
  have hcases := StreamReceiver.reliable_cases h.mode now frame
  generalize rx.processDataFrame now frame = result at hcases ⊢
  cases hcases with
  | suppressed dup => exact absurd dup fresh
  | inOrder fresh live expected =>
    have hspec := StreamReceiver.deliverInOrder_spec (rx.observed frame) frame frame.seq
    rw [StreamReceiver.observed_recovery, drainFrom_none (h.buffered _)] at hspec
    refine ⟨hspec.frames, hspec.mode.trans h.mode, ?_, ?_, abreast _ hspec.dedup ?_ hspec.expected⟩
    · rw [hspec.recovery]
      exact h.buffered
    · rw [hspec.recovery]
      exact h.outstanding
    · rw [hspec.active, StreamReceiver.observed_active]
  | reset fresh other started first =>
    exact ⟨rfl, h.mode, fun s => by simp [RecoveryEngine.reset], fun id => by simp [RecoveryEngine.reset],
      abreast _ rfl StreamReceiver.observed_active rfl⟩
  | gap fresh unexpected ahead => exact absurd hexpected unexpected
  | old fresh same behind =>
    rw [← hexpected] at behind
    exact absurd behind (UInt64.lt_irrefl _)

/-- **Step**: in every mode a frame in turn is delivered by itself, and nothing is asked for. -/
theorem step {m : DeliveryMode} (h : InTurn m handed rx) (now : Instant) (next : Next m handed frame)
    (room : frame.seq.toNat + 1 < 2 ^ 64) : Passed m handed frame (rx.processDataFrame now frame) := by
  cases m with
  | bestEffort => exact h.bestEffort now
  | latest => exact h.latest now next
  | atLeastOnce => exact h.atLeastOnce now next room
  | reliableOrdered => exact h.reliableOrdered now next room

end InTurn

end Rtdp
