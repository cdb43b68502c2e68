import Mathlib.Data.UInt
import Mathlib.Tactic

/-!
# The sequence tracker (`core/src/sequence/tracker.rs`)

`observe` classifies each received sequence against the next one expected of
the active publisher. Arithmetic on sequences is that of `u64` in a release
build: it wraps.

The tracker's behaviour is uniform in `expectedFor`: the sequence it would
accept next from a publisher, which is 1 for every publisher but the active
one.
-/

namespace Rtdp

inductive SequenceStatus where
  | inOrder (sequence : UInt64)
  | gap (expected received fromSequence toSequence : UInt64)
  | duplicateOrOld (sequence expected : UInt64)
  | publisherReset (oldPublisher : Option UInt64) (newPublisher initialSequence : UInt64)
  deriving DecidableEq, Repr

structure StreamSequenceTracker where
  streamId : UInt64
  activePublisherId : Option UInt64
  expectedSequence : UInt64
  totalGapsDetected : UInt64
  totalDuplicatesDetected : UInt64
  totalPublisherResets : UInt64
  deriving DecidableEq, Repr

namespace StreamSequenceTracker

def new (streamId : UInt64) : StreamSequenceTracker where
  streamId := streamId
  activePublisherId := none
  expectedSequence := 1
  totalGapsDetected := 0
  totalDuplicatesDetected := 0
  totalPublisherResets := 0

def observe (self : StreamSequenceTracker) (publisherId sequence : UInt64) :
    SequenceStatus × StreamSequenceTracker :=
  match self.activePublisherId with
  | none =>
    if sequence = 1 then
      (.inOrder 1, { self with activePublisherId := some publisherId, expectedSequence := 2 })
    else
      (.gap 1 sequence 1 (sequence - 1),
        { self with
          activePublisherId := some publisherId
          expectedSequence := 1
          totalGapsDetected := self.totalGapsDetected + 1 })
  | some activePub =>
    if activePub ≠ publisherId then
      let oldPub := self.activePublisherId
      if sequence = 1 then
        (.publisherReset oldPub publisherId 1,
          { self with
            activePublisherId := some publisherId
            totalPublisherResets := self.totalPublisherResets + 1
            expectedSequence := 2 })
      else
        (.gap 1 sequence 1 (sequence - 1),
          { self with
            activePublisherId := some publisherId
            totalPublisherResets := self.totalPublisherResets + 1
            expectedSequence := 1
            totalGapsDetected := self.totalGapsDetected + 1 })
    else if sequence = self.expectedSequence then
      (.inOrder sequence, { self with expectedSequence := self.expectedSequence + 1 })
    else if sequence < self.expectedSequence then
      (.duplicateOrOld sequence self.expectedSequence,
        { self with totalDuplicatesDetected := self.totalDuplicatesDetected + 1 })
    else
      (.gap self.expectedSequence sequence self.expectedSequence (sequence - 1),
        { self with totalGapsDetected := self.totalGapsDetected + 1 })

/-- Advance the expected sequence directly. -/
def advanceExpected (self : StreamSequenceTracker) (newExpected : UInt64) : StreamSequenceTracker :=
  if newExpected > self.expectedSequence then { self with expectedSequence := newExpected } else self

/-! ## What one observation does -/

/-- The sequence `observe` would accept next from the publisher. -/
def expectedFor (t : StreamSequenceTracker) (publisherId : UInt64) : UInt64 :=
  if t.activePublisherId = some publisherId then t.expectedSequence else 1

variable {t : StreamSequenceTracker} {p s : UInt64}

theorem expectedFor_active (h : t.activePublisherId = some p) :
    t.expectedFor p = t.expectedSequence := if_pos h

theorem expectedFor_inactive (h : t.activePublisherId ≠ some p) : t.expectedFor p = 1 := if_neg h

@[simp] theorem observe_streamId : (t.observe p s).2.streamId = t.streamId := by
  unfold observe
  split <;> split_ifs <;> rfl

/-- The observed publisher is the active one from then on. -/
@[simp] theorem observe_active : (t.observe p s).2.activePublisherId = some p := by
  unfold observe
  split <;> split_ifs <;> simp_all

/-- Only the expected sequence moves the expectation. -/
theorem observe_expected :
    (t.observe p s).2.expectedSequence =
      if s = t.expectedFor p then t.expectedFor p + 1 else t.expectedFor p := by
  unfold observe expectedFor
  cases h : t.activePublisherId with
  | none => split_ifs <;> simp_all
  | some a => split_ifs <;> simp_all

/-- Without a change of publisher, the expected sequence is in order. -/
theorem observe_status_same (ha : t.activePublisherId = none ∨ t.activePublisherId = some p)
    (h : s = t.expectedFor p) : (t.observe p s).1 = .inOrder s := by
  unfold observe
  unfold expectedFor at h
  rcases ha with ha | ha <;> simp_all

/-- Across one, it is 1, and a reset. -/
theorem observe_status_reset (started : t.activePublisherId ≠ none)
    (other : t.activePublisherId ≠ some p) (h : s = t.expectedFor p) :
    s = 1 ∧ (t.observe p s).1 = .publisherReset t.activePublisherId p 1 := by
  rw [expectedFor_inactive other] at h
  unfold observe
  cases ha : t.activePublisherId with
  | none => exact absurd ha started
  | some a => simp_all

/-- Any other sequence is a gap from the expected one, or an old one. -/
theorem observe_status_other (h : s ≠ t.expectedFor p) :
    (t.observe p s).1 = .gap (t.expectedFor p) s (t.expectedFor p) (s - 1) ∧
        (t.activePublisherId = some p → t.expectedFor p < s) ∨
      (t.observe p s).1 = .duplicateOrOld s (t.expectedFor p) ∧
        t.activePublisherId = some p ∧ s < t.expectedFor p := by
  unfold observe
  unfold expectedFor at h ⊢
  cases ha : t.activePublisherId with
  | none => split_ifs at * <;> simp_all
  | some a =>
    by_cases hp : a = p
    · subst hp
      simp only [ha, ite_true] at h
      have hne : s ≠ t.expectedSequence := h
      by_cases hlt : s < t.expectedSequence
      · simp [hne, hlt]
      · have : t.expectedSequence < s := by
          rw [UInt64.lt_iff_toNat_lt] at hlt ⊢
          have := UInt64.toNat_inj.ne.mpr hne
          omega
        simp [hne, hlt, this]
    · split_ifs at * <;> simp_all

@[simp] theorem advanceExpected_active (n : UInt64) :
    (t.advanceExpected n).activePublisherId = t.activePublisherId := by
  unfold advanceExpected
  split <;> rfl

@[simp] theorem advanceExpected_expected (n : UInt64) :
    (t.advanceExpected n).expectedSequence = if n > t.expectedSequence then n else t.expectedSequence := by
  unfold advanceExpected
  split <;> rfl

end StreamSequenceTracker

end Rtdp
