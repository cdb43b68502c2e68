import Rtdp.Core.Sequence.Tracker
import Rtdp.Lib.CountUp
import Rtdp.Lib.Runs
import Mathlib.Data.List.DropRight

/-!
# What gap reports say

Since the active publisher last changed, the tracker has seen a stretch of
sequences. One before the expected sequence is how far the stretch counts up
from 1, so a reported gap starts right behind what has been accepted in order,
and what is reported as old is exactly what the stretch has counted past.
-/

namespace Rtdp

/-- One call of `observe`. -/
structure Observation where
  publisherId : UInt64
  sequence : UInt64
  deriving DecidableEq, Repr

namespace StreamSequenceTracker

def observeAll (t : StreamSequenceTracker) (calls : List Observation) : StreamSequenceTracker :=
  Runs.run (fun t c => (t.observe c.publisherId c.sequence).2) t calls

@[simp] theorem observeAll_snoc (t : StreamSequenceTracker) (calls : List Observation) (c : Observation) :
    t.observeAll (calls ++ [c]) = ((t.observeAll calls).observe c.publisherId c.sequence).2 := by
  simp [observeAll]

end StreamSequenceTracker

/-- The publisher of the last call. -/
def lastPublisher (calls : List Observation) : Option UInt64 :=
  calls.getLast?.map Observation.publisherId

/-- The sequences observed since the active publisher last changed, the changing call included. -/
def stretch (calls : List Observation) : List ℕ :=
  (calls.rtakeWhile fun c => some c.publisherId = lastPublisher calls).map (·.sequence.toNat)

@[simp] theorem lastPublisher_snoc (calls : List Observation) (c : Observation) :
    lastPublisher (calls ++ [c]) = some c.publisherId := by
  simp [lastPublisher]

/-- A call of the active publisher continues the stretch, one of another publisher starts it anew. -/
theorem stretch_snoc (calls : List Observation) (c : Observation) :
    stretch (calls ++ [c]) =
      (if lastPublisher calls = some c.publisherId then stretch calls else []) ++ [c.sequence.toNat] := by
  unfold stretch
  rw [lastPublisher_snoc, List.rtakeWhile_concat_pos _ _ _ (by simp), List.map_append]
  congr 1
  split_ifs with same
  · rw [same]
  · rcases List.eq_nil_or_concat calls with rfl | ⟨before, d, rfl⟩
    · rfl
    · rw [List.concat_eq_append, lastPublisher_snoc] at same
      rw [List.concat_eq_append, List.rtakeWhile_concat_neg _ _ _ (by simpa using same)]
      rfl

theorem stretch_append {calls later : List Observation} {p : UInt64}
    (active : lastPublisher calls = some p) (same : ∀ c ∈ later, c.publisherId = p) :
    lastPublisher (calls ++ later) = some p ∧
      stretch (calls ++ later) = stretch calls ++ later.map (·.sequence.toNat) := by
  induction later using List.reverseRecOn with
  | nil => simp [active]
  | append_singleton later c ih =>
    obtain ⟨hactive, hstretch⟩ := ih fun d hd => same d (by simp [hd])
    have hc : c.publisherId = p := same c (by simp)
    rw [← List.append_assoc, lastPublisher_snoc, stretch_snoc, hactive, if_pos (by rw [hc]), hstretch]
    exact ⟨congrArg some hc, by simp⟩

/-- The sequences a tracker may see without `expectedSequence` wrapping. -/
def Observation.InRange (c : Observation) : Prop := 1 ≤ c.sequence.toNat ∧ c.sequence.toNat ≤ 2 ^ 64 - 2

instance (c : Observation) : Decidable c.InRange := inferInstanceAs (Decidable (_ ∧ _))

/-- What a call of publisher `p` continues: the stretch, unless it changes the active publisher. -/
def stretchFor (calls : List Observation) (p : UInt64) : List ℕ :=
  if lastPublisher calls = some p then stretch calls else []

/-- What a status accepts in order. -/
def SequenceStatus.accepted : SequenceStatus → Option UInt64
  | .inOrder sequence => some sequence
  | .publisherReset _ _ initialSequence => some initialSequence
  | .gap _ _ _ _ => none
  | .duplicateOrOld _ _ => none

namespace StreamSequenceTracker

variable {t : StreamSequenceTracker} {calls : List Observation}

/-- The tracker is where the calls leave it. -/
structure Counts (calls : List Observation) (t : StreamSequenceTracker) : Prop where
  active : t.activePublisherId = lastPublisher calls
  count : ∃ k, t.expectedSequence.toNat = k + 1 ∧ IsCount (stretch calls) k

theorem Counts.expectedFor (counts : Counts calls t) (p : UInt64) :
    ∃ k, (t.expectedFor p).toNat = k + 1 ∧ IsCount (stretchFor calls p) k := by
  unfold stretchFor
  split_ifs with same
  · rw [expectedFor_active (counts.active.trans same)]
    exact counts.count
  · rw [expectedFor_inactive (by rwa [counts.active])]
    exact ⟨0, rfl, IsCount.nil⟩

/-- **Step** -/
theorem Counts.observe (counts : Counts calls t) (c : Observation) (hc : c.InRange) : Counts (calls ++ [c]) (t.observe c.publisherId c.sequence).2 := by
  refine ⟨by simp, ?_⟩
  obtain ⟨k, hk, hcount⟩ := counts.expectedFor c.publisherId
  rw [observe_expected, stretch_snoc]
  change ∃ n, _ ∧ IsCount (stretchFor calls c.publisherId ++ [c.sequence.toNat]) n
  split_ifs with next
  · have hseq : c.sequence.toNat = k + 1 := by rw [next, hk]
    have hwrap := hc.2
    refine ⟨k + 1, ?_, hseq ▸ hcount.snoc_next⟩
    rw [← next, UInt64.toNat_add, hseq]
    exact Nat.mod_eq_of_lt (by simp; omega)
  · refine ⟨k, hk, hcount.snoc_other fun h => next ?_⟩
    rw [← UInt64.toNat_inj, h, hk]

/-- **Run** -/
theorem counts_observeAll (streamId : UInt64) (numbered : ∀ c ∈ calls, c.InRange) :
    Counts calls ((new streamId).observeAll calls) := by
  induction calls using List.reverseRecOn with
  | nil => exact ⟨rfl, 0, rfl, IsCount.nil⟩
  | append_singleton calls c ih =>
    rw [observeAll_snoc]
    exact (ih fun d hd => numbered d (by simp [hd])).observe c (numbered c (by simp))

theorem observe_accepted {p s x : UInt64} (h : (t.observe p s).1.accepted = some x) :
    x = s ∧ s = t.expectedFor p := by
  by_cases hs : s = t.expectedFor p
  · refine ⟨?_, hs⟩
    by_cases live : t.activePublisherId = none ∨ t.activePublisherId = some p
    · rw [observe_status_same live hs] at h
      exact (Option.some.inj h).symm
    · obtain ⟨started, other⟩ := not_or.mp live
      obtain ⟨hone, hstatus⟩ := observe_status_reset started other hs
      rw [hstatus] at h
      rw [hone]
      exact (Option.some.inj h).symm
  · rcases observe_status_other hs with ⟨hstatus, -⟩ | ⟨hstatus, -⟩ <;> rw [hstatus] at h <;> cases h

/-- A gap is reported from the sequence expected, which stays expected, up to the one received. -/
theorem observe_gap {p s e r a b : UInt64} (hs : 1 ≤ s.toNat) (h : (t.observe p s).1 = .gap e r a b) :
    a = (t.observe p s).2.expectedSequence ∧ a < s ∧ r = s ∧ b = s - 1 := by
  have unexpected : s ≠ t.expectedFor p := by
    intro hexp
    have haccepted : (t.observe p s).1.accepted ≠ none := by
      by_cases live : t.activePublisherId = none ∨ t.activePublisherId = some p
      · rw [observe_status_same live hexp]
        exact Option.some_ne_none _
      · obtain ⟨started, other⟩ := not_or.mp live
        rw [(observe_status_reset started other hexp).2]
        exact Option.some_ne_none _
    rw [h] at haccepted
    exact haccepted rfl
  rcases observe_status_other unexpected with ⟨hstatus, ahead⟩ | ⟨hstatus, -⟩
  · rw [hstatus] at h
    cases h
    rw [observe_expected, if_neg unexpected]
    refine ⟨rfl, ?_, rfl, rfl⟩
    by_cases active : t.activePublisherId = some p
    · exact ahead active
    · rw [expectedFor_inactive active] at unexpected ⊢
      have : s.toNat ≠ 1 := fun h => unexpected (UInt64.toNat_inj.mp h)
      rw [UInt64.lt_iff_toNat_lt]
      exact lt_of_le_of_ne hs this.symm
  · rw [hstatus] at h
    cases h

/-- Without a change of publisher, what is below the expected sequence is reported as old. -/
theorem observe_old_iff {p s : UInt64} (active : t.activePublisherId = some p) :
    (∃ sequence expected, (t.observe p s).1 = .duplicateOrOld sequence expected) ↔
      s < t.expectedSequence := by
  by_cases hs : s = t.expectedFor p
  · rw [observe_status_same (.inr active) hs]
    rw [expectedFor_active active] at hs
    simp [hs]
  · rcases observe_status_other hs with ⟨hstatus, ahead⟩ | ⟨hstatus, -, behind⟩
    · have hlt := ahead active
      rw [expectedFor_active active] at hlt
      rw [hstatus]
      simp [UInt64.lt_asymm hlt]
    · rw [expectedFor_active active] at behind
      rw [hstatus]
      simp [behind]

/-- What has been accepted in order since the active publisher last changed is at most what the
stretch counts to. -/
theorem Counts.accepted_le {streamId : UInt64} {earlier later : List Observation} {d : Observation}
    {x : UInt64} {k : ℕ} (numbered : ∀ c ∈ earlier ++ d :: later, c.InRange)
    (same : ∀ e ∈ later, e.publisherId = d.publisherId)
    (accepted : (((new streamId).observeAll earlier).observe d.publisherId d.sequence).1.accepted = some x)
    (hcount : IsCount (stretch (earlier ++ d :: later)) k) : x.toNat ≤ k := by
  obtain ⟨hx, hexpected⟩ := observe_accepted accepted
  have hearlier : Counts earlier ((new streamId).observeAll earlier) :=
    counts_observeAll streamId fun c hc => numbered c (by simp [hc])
  obtain ⟨n, hn, hcount'⟩ := hearlier.expectedFor d.publisherId
  have hd : d.sequence.toNat = n + 1 := by rw [hexpected, hn]
  have hafter : IsCount (stretch (earlier ++ [d])) (n + 1) := by
    rw [stretch_snoc, hd]
    exact hcount'.snoc_next
  have hlater := (stretch_append (lastPublisher_snoc earlier d) same).2
  rw [List.append_assoc, List.singleton_append] at hlater
  rw [hlater] at hcount
  rw [hx, hd]
  exact hafter.le_append hcount

end StreamSequenceTracker

open StreamSequenceTracker

/-- What the call `c`, made after the calls `before`, reports. -/
structure ExactReport (streamId : UInt64) (before : List Observation) (c : Observation)
    (t : StreamSequenceTracker) : Prop where
  /-- A gap starts at the sequence then expected, and ends right below the one received. -/
  gap : ∀ expected received fromSequence toSequence,
    (t.observe c.publisherId c.sequence).1 = .gap expected received fromSequence toSequence →
      fromSequence = (t.observe c.publisherId c.sequence).2.expectedSequence ∧
        fromSequence ≤ toSequence ∧ received = c.sequence ∧ toSequence.toNat = received.toNat - 1
  /-- It contains nothing accepted since the active publisher last changed. -/
  missing : ∀ expected received fromSequence toSequence,
    (t.observe c.publisherId c.sequence).1 = .gap expected received fromSequence toSequence →
      ∀ earlier d later x, before = earlier ++ d :: later →
        (∀ e ∈ later ++ [c], e.publisherId = d.publisherId) →
        (((new streamId).observeAll earlier).observe d.publisherId d.sequence).1.accepted = some x →
          ¬ (fromSequence ≤ x ∧ x ≤ toSequence)
  /-- Without a change of publisher, old is what the stretch has counted past. -/
  old : t.activePublisherId = some c.publisherId → ∀ k, IsCount (stretch before) k →
    ((∃ sequence expected,
        (t.observe c.publisherId c.sequence).1 = .duplicateOrOld sequence expected) ↔
      c.sequence.toNat ≤ k)

theorem exactReport_observe {streamId : UInt64} {before : List Observation} {c : Observation}
    (numbered : ∀ d ∈ before ++ [c], d.InRange) :
    ExactReport streamId before c ((new streamId).observeAll before) := by
  have hbefore : Counts before ((new streamId).observeAll before) :=
    counts_observeAll streamId fun d hd => numbered d (by simp [hd])
  obtain ⟨n, hn, hafter⟩ := (counts_observeAll streamId numbered).count
  rw [observeAll_snoc] at hn
  have hpos := (numbered c (by simp)).1
  refine ⟨fun e r a b h => ?_, fun e r a b h earlier d later x heq same accepted => ?_, fun active k hk => ?_⟩
  · obtain ⟨hfrom, hlt, rfl, rfl⟩ := observe_gap hpos h
    have hle : 1 ≤ c.sequence := UInt64.le_iff_toNat_le.mpr hpos
    rw [UInt64.le_iff_toNat_le, UInt64.toNat_sub_of_le _ _ hle]
    rw [UInt64.lt_iff_toNat_lt] at hlt
    exact ⟨hfrom, Nat.le_sub_one_of_lt hlt, rfl, rfl⟩
  · obtain ⟨rfl, -⟩ := observe_gap hpos h
    subst heq
    simp only [List.append_assoc, List.cons_append] at numbered hafter
    have hx := Counts.accepted_le numbered same accepted hafter
    rw [UInt64.le_iff_toNat_le, hn]
    omega
  · obtain ⟨m, hm, hcount⟩ := hbefore.count
    obtain rfl : m = k := IsGreatest.unique hcount hk
    rw [observe_old_iff active, UInt64.lt_iff_toNat_lt, hm]
    exact Nat.lt_succ_iff

/-- **Gap reports are exact**: after each call the expected sequence is one more than what the
stretch counts to, and each call reports accordingly. -/
theorem gap_reports_exact (streamId : UInt64) (calls : List Observation)
    (numbered : ∀ c ∈ calls, c.InRange) :
    (∀ before after, calls = before ++ after →
      ∃ k, ((new streamId).observeAll before).expectedSequence.toNat = k + 1 ∧
        IsCount (stretch before) k) ∧
    ∀ before c after, calls = before ++ c :: after →
      ExactReport streamId before c ((new streamId).observeAll before) := by
  refine ⟨?_, ?_⟩
  · rintro before after rfl
    exact (counts_observeAll streamId fun d hd => numbered d (by simp [hd])).count
  · rintro before c after rfl
    refine exactReport_observe fun d hd => numbered d ?_
    rw [← List.singleton_append, ← List.append_assoc]
    exact List.mem_append_left after hd

/-- Two publishers taking turns: each return starts a stretch of its own. -/
theorem gap_reports_exact_turns :
    let calls : List Observation := [⟨7, 1⟩, ⟨7, 4⟩, ⟨7, 2⟩, ⟨9, 3⟩, ⟨7, 1⟩]
    (∀ before after, calls = before ++ after →
      ∃ k, ((new 1).observeAll before).expectedSequence.toNat = k + 1 ∧ IsCount (stretch before) k) ∧
    ∀ before c after, calls = before ++ c :: after → ExactReport 1 before c ((new 1).observeAll before) :=
  gap_reports_exact 1 _ (by decide)

end Rtdp
