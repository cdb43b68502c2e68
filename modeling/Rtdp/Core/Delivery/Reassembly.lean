import Rtdp.Core.Delivery.ReliableOrdered
import Rtdp.Lib.Frontier

/-!
# `ReliableOrdered` on DATA alone releases in order

The receiver of one publisher's DATA frames refines the in-order release of
`Rtdp.Lib.Frontier`: each call releases exactly the sequences between the old
and the new frontier of what has been received. The invariant `Synced` ties
the parts together. The tracker's expectation is the frontier; the buffer
holds what was received beyond it; the duplicate filter has recorded only
received sequences, so it never suppresses the frame at the frontier.
-/

namespace Rtdp

/-- The sequences of the received frames, as numbers. -/
def seqsOf (received : List OwnedFrame) : Set ℕ := {n | ∃ f ∈ received, f.seq.toNat = n}

theorem seqsOf_append (received : List OwnedFrame) (f : OwnedFrame) :
    seqsOf (received ++ [f]) = insert f.seq.toNat (seqsOf received) := by
  ext n
  simp only [seqsOf, List.mem_append, List.mem_singleton, Set.mem_ofPred_eq, Set.mem_insert_iff]
  constructor
  · rintro ⟨g, hg | rfl, hn⟩
    · exact Or.inr ⟨g, hg, hn⟩
    · exact Or.inl hn.symm
  · rintro (rfl | ⟨g, hg, hn⟩)
    · exact ⟨f, Or.inr rfl, rfl⟩
    · exact ⟨g, Or.inl hg, hn⟩

@[simp] theorem seqsOf_nil : seqsOf [] = ∅ := by
  ext n
  simp [seqsOf]

/-- What `rx` holds agrees with having received exactly the frames `received` of publisher `p`. -/
structure Holds (p : UInt64) (received : List OwnedFrame) (rx : StreamReceiver) : Prop where
  mode : rx.mode = .reliableOrdered
  frontier : IsFrontier (seqsOf received) (rx.tracker.expectedFor p).toNat
  keyed : OrderedMap.Keyed OwnedFrame.seq rx.recovery.bufferedOutOfOrder
  buffered : ∀ k : UInt64, (∃ f, rx.recovery.bufferedOutOfOrder[k]? = some f) ↔
    rx.tracker.expectedFor p < k ∧ k.toNat ∈ seqsOf received
  genuine : ∀ (k : UInt64) f, rx.recovery.bufferedOutOfOrder[k]? = some f → f ∈ received
  recorded : ∀ key ∈ rx.dedup.recentKeys, key.publisherId = p → key.sequence.toNat ∈ seqsOf received

/-- `p` is moreover the active publisher, once a frame of it has been received. -/
structure Synced (p : UInt64) (received : List OwnedFrame) (rx : StreamReceiver) : Prop
    extends Holds p received rx where
  active : rx.tracker.activePublisherId = some p ∨ received = []

/-- What a step of a synced receiver achieves: the abstract release, made of received frames,
and the invariant again. -/
structure Refines (p : UInt64) (received : List OwnedFrame) (f : OwnedFrame)
    (result : Delivery × StreamReceiver) : Prop where
  synced : Synced p (received ++ [f]) result.2
  releases : Releases (seqsOf received) f.seq.toNat (result.1.frames.map fun g => g.seq.toNat)
  genuine : ∀ g ∈ result.1.frames, g ∈ received ++ [f]

namespace Holds

variable {p : UInt64} {received : List OwnedFrame} {rx : StreamReceiver} {f : OwnedFrame}
  {now : Instant}

/-- The filter has recorded the frame itself, and what it had recorded before. -/
theorem recorded_observed (h : Holds p received rx) : ∀ key ∈ (rx.observed f).dedup.recentKeys,
    key.publisherId = p → key.sequence.toNat ∈ seqsOf (received ++ [f]) := by
  intro key hkey hpub
  rw [seqsOf_append]
  rcases StreamReceiver.observed_recorded hkey with rfl | hkey
  · exact Or.inl rfl
  · exact Or.inr (h.recorded key hkey hpub)

theorem ne_frontier (hp : f.header.publisherId = p) (unexpected : f.seq ≠ rx.expectedOf f) :
    f.seq.toNat ≠ (rx.tracker.expectedFor p).toNat := by
  intro heq
  apply unexpected
  rw [StreamReceiver.expectedOf, hp]
  exact UInt64.toNat_inj.mp heq

/-- A frame that delivers nothing, is already accounted for, and leaves the buffer alone. -/
theorem refines_idle (h : Holds p received rx) (hp : f.header.publisherId = p)
    (known : f.seq.toNat ∈ seqsOf received) :
    Refines p received f (.ok ([], none), rx.observed f) := by
  have hne : f.seq ≠ rx.expectedOf f := by
    intro heq
    rw [StreamReceiver.expectedOf, hp] at heq
    exact h.frontier.not_mem (heq ▸ known)
  have hseqs : seqsOf (received ++ [f]) = seqsOf received := by
    rw [seqsOf_append, Set.insert_eq_of_mem known]
  have hexp : (rx.observed f).tracker.expectedFor p = rx.tracker.expectedFor p := by
    rw [← hp]
    exact StreamReceiver.observed_expectedFor hne
  refine ⟨⟨⟨h.mode, ?_, h.keyed, ?_, ?_, ?_⟩, Or.inl (by simp [hp])⟩, ?_, by simp [Delivery.frames]⟩
  · rw [hexp, hseqs]
    exact h.frontier
  · intro k
    rw [hexp, hseqs]
    exact h.buffered k
  · intro k g hg
    exact List.mem_append_left _ (h.genuine k g hg)
  · exact h.recorded_observed
  · exact Releases.none_of_ne h.frontier (ne_frontier hp hne)

/-- A frame beyond the frontier is buffered, whatever becomes of the replay request. -/
theorem refines_gap (h : Holds p received rx) (hp : f.header.publisherId = p)
    (beyond : rx.expectedOf f < f.seq) (a b : UInt64) :
    Refines p received f ((rx.observed f).bufferGap now f a b) := by
  obtain ⟨hframes, hrx⟩ := StreamReceiver.bufferGap_spec (rx.observed f) now f a b
  have hne : f.seq ≠ rx.expectedOf f := fun heq => UInt64.lt_irrefl _ (heq ▸ beyond)
  have hexp : (rx.observed f).tracker.expectedFor p = rx.tracker.expectedFor p := by
    rw [← hp]
    exact StreamReceiver.observed_expectedFor hne
  have hlt : rx.tracker.expectedFor p < f.seq := by rwa [StreamReceiver.expectedOf, hp] at beyond
  refine ⟨⟨⟨?_, ?_, StreamReceiver.bufferGap_keyed now h.keyed, ?_, ?_, ?_⟩, ?_⟩, ?_, ?_⟩
  · rw [hrx]
    exact h.mode
  · rw [StreamReceiver.bufferGap_tracker, hexp, seqsOf_append]
    exact h.frontier.insert_of_ne (ne_frontier hp hne)
  · intro k
    rw [StreamReceiver.bufferGap_get, StreamReceiver.bufferGap_tracker, hexp, seqsOf_append]
    by_cases hk : k = f.seq
    · subst hk
      simp [hlt]
    · have hk' : k.toNat ≠ f.seq.toNat := fun heq => hk (UInt64.toNat_inj.mp heq)
      simp only [if_neg hk, Set.mem_insert_iff, hk', false_or]
      exact h.buffered k
  · intro k g hg
    rw [StreamReceiver.bufferGap_get] at hg
    split at hg
    · cases hg
      simp
    · exact List.mem_append_left _ (h.genuine k g hg)
  · rw [StreamReceiver.bufferGap_dedup]
    exact h.recorded_observed
  · rw [StreamReceiver.bufferGap_tracker]
    exact Or.inl (by simp [hp])
  · rw [hframes]
    exact Releases.none_of_ne h.frontier (ne_frontier hp hne)
  · rw [hframes]
    simp

section Stretch

/-! The stretch drained behind a frame `s` that is the one expected. -/

variable {s : UInt64} {drained : List OwnedFrame} {left : OrderedMap UInt64 OwnedFrame} {n : Nat}

theorem buffered_beyond (h : Holds p received rx) (hE : rx.tracker.expectedFor p = s) (k : UInt64) :
    (∃ g, rx.recovery.bufferedOutOfOrder[k]? = some g) ↔
      s.toNat < k.toNat ∧ k.toNat ∈ seqsOf received := by
  rw [h.buffered k, hE, UInt64.lt_iff_toNat_lt]

/-- A sequence not received bounds the stretch: it lies beyond `s` and is not buffered. -/
theorem stretch_bound (h : Holds p received rx) (hE : rx.tracker.expectedFor p = s) {missing : UInt64}
    (hpos : 0 < missing) (hmissing : missing.toNat ∉ seqsOf received) (hs : s ≠ missing) :
    s < missing ∧ rx.recovery.bufferedOutOfOrder[missing]? = none := by
  constructor
  · rw [UInt64.lt_iff_toNat_lt]
    have hle := h.frontier.2 ⟨UInt64.lt_iff_toNat_lt.mp hpos, hmissing⟩
    rw [hE] at hle
    have hne : s.toNat ≠ missing.toNat := fun heq => hs (UInt64.toNat_inj.mp heq)
    omega
  · cases hget : rx.recovery.bufferedOutOfOrder[missing]? with
    | none => rfl
    | some g => exact absurd ((h.buffered_beyond hE missing).mp ⟨g, hget⟩).2 hmissing

theorem stretch_received (h : Holds p received rx) (hE : rx.tracker.expectedFor p = s)
    (hs : Stretch s rx.recovery.bufferedOutOfOrder drained left n) {k : ℕ} (hk : s.toNat < k)
    (hk' : k < s.toNat + 1 + n) : k ∈ seqsOf received := by
  have hmem : k ∈ drained.map fun g => g.seq.toNat := by
    rw [hs.seqs, List.mem_range'_1]
    omega
  obtain ⟨g, hg, rfl⟩ := List.mem_map.mp hmem
  exact ((h.buffered_beyond hE g.seq).mp ⟨g, hs.taken g hg⟩).2

theorem stretch_stops (h : Holds p received rx) (hE : rx.tracker.expectedFor p = s)
    (hs : Stretch s rx.recovery.bufferedOutOfOrder drained left n) :
    s.toNat + 1 + n ∉ seqsOf received := by
  intro hin
  have hend : (UInt64.ofNat (s.toNat + 1 + n)).toNat = s.toNat + 1 + n :=
    UInt64.toNat_ofNat_of_lt' hs.fits
  have hstop := hs.stop _ hend
  obtain ⟨g, hg⟩ := (h.buffered_beyond hE (UInt64.ofNat (s.toNat + 1 + n))).mpr
    ⟨by rw [hend]; omega, by rwa [hend]⟩
  rw [hstop] at hg
  cases hg

/-- What the drain leaves is what was received beyond the new frontier. -/
theorem stretch_left (h : Holds p received rx) (hE : rx.tracker.expectedFor p = s)
    (hs : Stretch s rx.recovery.bufferedOutOfOrder drained left n) (k : UInt64) :
    (∃ g, left[k]? = some g) ↔
      s.toNat + 1 + n < k.toNat ∧ k.toNat ∈ insert s.toNat (seqsOf received) := by
  simp only [hs.left_get]
  by_cases hk : s.toNat < k.toNat ∧ k.toNat < s.toNat + 1 + n
  · simp only [if_pos hk]
    constructor
    · rintro ⟨_, hcon⟩
      cases hcon
    · rintro ⟨hgt, -⟩
      omega
  · simp only [if_neg hk, h.buffered_beyond hE k, Set.mem_insert_iff]
    constructor
    · rintro ⟨hgt, hin⟩
      have : k.toNat ≠ s.toNat + 1 + n := fun heq => h.stretch_stops hE hs (heq ▸ hin)
      exact ⟨by omega, Or.inr hin⟩
    · rintro ⟨hgt, heq | hin⟩
      · omega
      · exact ⟨by omega, hin⟩

end Stretch

/-- The frame at the frontier is delivered with the buffered stretch behind it. `missing` is a
sequence not received: the stretch stops before it, so no counter wraps. -/
theorem refines_inOrder (h : Holds p received rx) (hp : f.header.publisherId = p)
    (expected : f.seq = rx.expectedOf f) {missing : UInt64} (hpos : 0 < missing)
    (hmissing : missing.toNat ∉ seqsOf received) (hf : f.seq ≠ missing) :
    Refines p received f ((rx.observed f).deliverInOrder f f.seq) := by
  have hE : rx.tracker.expectedFor p = f.seq := by rw [expected, StreamReceiver.expectedOf, hp]
  have hfr := h.frontier
  rw [hE] at hfr
  obtain ⟨hbelow, hnone⟩ := h.stretch_bound hE hpos hmissing hf
  obtain ⟨drained, left, n, hrel⟩ := StreamReceiver.released h.keyed expected hbelow hnone
  generalize (rx.observed f).deliverInOrder f f.seq = result at hrel ⊢
  have hexp : (result.2.tracker.expectedFor p).toNat = f.seq.toNat + 1 + n := by
    have hactive : result.2.tracker.activePublisherId = some p := by rw [hrel.active]; simp [hp]
    rw [StreamSequenceTracker.expectedFor_active hactive, hrel.next]
  have hfrontier : IsFrontier (seqsOf (received ++ [f])) (f.seq.toNat + 1 + n) := by
    rw [seqsOf_append]
    exact hfr.insert_self (by omega) (h.stretch_stops hE hrel.toStretch) fun k =>
      h.stretch_received hE hrel.toStretch
  refine ⟨⟨⟨?_, ?_, ?_, ?_, ?_, ?_⟩, ?_⟩, ?_, ?_⟩
  · rw [hrel.mode]
    exact h.mode
  · rw [hexp]
    exact hfrontier
  · rw [hrel.recovery]
    exact hrel.toStretch.keyed h.keyed
  · intro k
    rw [hrel.recovery, seqsOf_append, UInt64.lt_iff_toNat_lt, hexp]
    exact h.stretch_left hE hrel.toStretch k
  · intro k g hg
    rw [hrel.recovery, hrel.left_get] at hg
    split at hg
    · cases hg
    · exact List.mem_append_left _ (h.genuine k g hg)
  · rw [hrel.dedup]
    exact h.recorded_observed
  · rw [hrel.active]
    exact Or.inl (by simp [hp])
  · refine ⟨_, _, hfr, seqsOf_append received f ▸ hfrontier, ?_⟩
    rw [hrel.frames, Delivery.frames, List.map_cons, hrel.seqs,
      show f.seq.toNat + 1 + n - f.seq.toNat = n + 1 by omega, List.range'_succ]
  · rw [hrel.frames]
    intro g hg
    rcases List.mem_cons.mp hg with rfl | hg
    · simp
    · exact List.mem_append_left _ (h.genuine g.seq g (hrel.taken g hg))

end Holds

namespace Synced

variable {p : UInt64} {received : List OwnedFrame} {rx : StreamReceiver} {f : OwnedFrame}

/-- A frame 1 that replaces another publisher starts afresh. Nothing is asked of the buffer:
the reset empties it. -/
theorem refines_reset (mode : rx.mode = .reliableOrdered) (hp : f.header.publisherId = p)
    (first : f.seq = 1) (expected : f.seq = rx.expectedOf f)
    (unrecorded : ∀ key ∈ rx.dedup.recentKeys, key.publisherId ≠ p) :
    Refines p [] f
      (.ok ([f], none),
        { rx.observed f with recovery := rx.recovery.reset, highestDeliveredSequence := 1 }) := by
  have hseqs : seqsOf ([] ++ [f]) = {1} := by
    rw [seqsOf_append, first]
    ext n
    simp [seqsOf]
  have hexp : (rx.observed f).tracker.expectedFor p = 2 := by
    rw [StreamSequenceTracker.expectedFor_active (by simp [hp]), StreamReceiver.observed_expected,
      if_pos expected, ← expected, first]
    rfl
  have hfrontier : IsFrontier (seqsOf ([] ++ [f])) 2 := by
    rw [hseqs]
    refine IsFrontier.intro (by omega) (by simp) fun k hk hk2 => ?_
    rw [Set.mem_singleton_iff]
    omega
  refine ⟨⟨⟨mode, ?_, OrderedMap.Keyed.empty, ?_, ?_, ?_⟩, Or.inl (by simp [hp])⟩, ?_, ?_⟩
  · rw [hexp]
    exact hfrontier
  · intro k
    rw [hexp, hseqs, UInt64.lt_iff_toNat_lt, Set.mem_singleton_iff]
    constructor
    · rintro ⟨g, hg⟩
      simp [RecoveryEngine.reset] at hg
    · rintro ⟨hgt, hk⟩
      rw [hk] at hgt
      exact absurd hgt (by decide)
  · intro k g hg
    simp [RecoveryEngine.reset] at hg
  · intro key hkey hpub
    rcases StreamReceiver.observed_recorded hkey with rfl | hkey
    · exact ⟨f, by simp, rfl⟩
    · exact absurd hpub (unrecorded key hkey)
  · refine ⟨1, 2, ?_, ?_, by simp [Delivery.frames, first]⟩
    · rw [seqsOf_nil]
      exact IsFrontier.empty
    · rwa [← seqsOf_append]
  · simp [Delivery.frames]

/-- **Step**: every frame of the publisher is handled as the in-order release says. -/
theorem step (h : Synced p received rx) (now : Instant) (hp : f.header.publisherId = p) (hf : 0 < f.seq)
    {missing : UInt64} (hpos : 0 < missing) (hmissing : missing.toNat ∉ seqsOf received)
    (hne : f.seq ≠ missing) : Refines p received f (rx.processDataFrame now f) := by
  have hcases := StreamReceiver.reliable_cases h.mode now f
  generalize rx.processDataFrame now f = result at hcases ⊢
  cases hcases with
  | suppressed dup =>
    apply h.refines_idle hp
    exact h.recorded _ dup hp
  | inOrder fresh live expected => exact h.refines_inOrder hp expected hpos hmissing hne
  | reset fresh other started first =>
    have hnil : received = [] := by
      rcases h.active with hactive | hnil
      · exact absurd (hp ▸ hactive) other
      · exact hnil
    subst hnil
    have hexp : f.seq = rx.expectedOf f := by
      rw [StreamReceiver.expectedOf, StreamSequenceTracker.expectedFor_inactive other, first]
    refine refines_reset h.mode hp first hexp ?_
    intro key hkey hpub
    obtain ⟨g, hg, -⟩ := h.recorded key hkey hpub
    cases hg
  | gap fresh unexpected ahead =>
    apply h.refines_gap hp
    by_cases hactive : rx.tracker.activePublisherId = some f.header.publisherId
    · exact ahead hactive
    · rw [StreamReceiver.expectedOf, StreamSequenceTracker.expectedFor_inactive hactive] at unexpected ⊢
      exact Counter.one_lt_of_pos_of_ne hf unexpected
  | old fresh same behind =>
    apply h.refines_idle hp
    apply h.frontier.mem_of_lt
    · exact UInt64.lt_iff_toNat_lt.mp hf
    · rw [← hp]
      exact UInt64.lt_iff_toNat_lt.mp behind

end Synced

/-! ## Runs -/

/-- What a run of calls has delivered: the received sequences up to the frontier, in order. -/
structure Reassembled (p : UInt64) (received : List OwnedFrame) (σ : Feed) : Prop where
  synced : Synced p received σ.receiver
  delivered : (σ.delivered.map fun g => g.seq.toNat) =
    List.range' 1 ((σ.receiver.tracker.expectedFor p).toNat - 1)
  genuine : ∀ g ∈ σ.delivered, g ∈ received

namespace Reassembled

variable {p : UInt64} {received : List OwnedFrame} {σ : Feed}

/-- A receiver that holds nothing, before the first frame of `p`. -/
theorem idle {rx : StreamReceiver} (mode : rx.mode = .reliableOrdered)
    (inactive : rx.tracker.activePublisherId ≠ some p) (empty : rx.recovery.bufferedOutOfOrder = ∅)
    (unrecorded : ∀ key ∈ rx.dedup.recentKeys, key.publisherId ≠ p) :
    Reassembled p [] (Feed.of rx) := by
  have hexp : rx.tracker.expectedFor p = 1 := StreamSequenceTracker.expectedFor_inactive inactive
  refine ⟨⟨⟨mode, ?_, ?_, ?_, ?_, ?_⟩, Or.inr rfl⟩, ?_, ?_⟩
  · rw [Feed.of, hexp, seqsOf_nil]
    exact IsFrontier.empty
  · rw [Feed.of, empty]
    exact OrderedMap.Keyed.empty
  · intro k
    simp [Feed.of, empty]
  · intro k g hg
    simp [Feed.of, empty] at hg
  · intro key hkey hpub
    exact absurd hpub (unrecorded key hkey)
  · rw [Feed.of, hexp]
    rfl
  · intro g hg
    cases hg

theorem of_refines {a : Arrival} {n : ℕ} (frontier : IsFrontier (seqsOf received) n)
    (delivered : (σ.delivered.map fun g => g.seq.toNat) = List.range' 1 (n - 1))
    (genuine : ∀ g ∈ σ.delivered, g ∈ received)
    (h : Refines p received a.frame (σ.receiver.processDataFrame a.now a.frame)) :
    Reassembled p (received ++ [a.frame]) (σ.call a) := by
  refine ⟨h.synced, ?_, ?_⟩
  · rw [Feed.call_delivered, List.map_append, delivered]
    refine Releases.append frontier ?_ h.releases
    rw [← seqsOf_append]
    exact h.synced.frontier
  · intro g hg
    rw [Feed.call_delivered, List.mem_append] at hg
    rcases hg with hg | hg
    · exact List.mem_append_left _ (genuine g hg)
    · exact h.genuine g hg

theorem first {rx : StreamReceiver} {a : Arrival}
    (h : Refines p [] a.frame (rx.processDataFrame a.now a.frame)) :
    Reassembled p [a.frame] ((Feed.of rx).call a) := by
  have frontier : IsFrontier (seqsOf []) 1 := by
    rw [seqsOf_nil]
    exact IsFrontier.empty
  have none : ∀ g ∈ (Feed.of rx).delivered, g ∈ [] := by
    intro g hg
    cases hg
  exact of_refines (σ := Feed.of rx) frontier rfl none h

theorem call {a : Arrival} {missing : UInt64} (h : Reassembled p received σ)
    (hp : a.frame.header.publisherId = p) (hf : 0 < a.frame.seq) (hpos : 0 < missing) (hmissing : missing.toNat ∉ seqsOf received)
    (hne : a.frame.seq ≠ missing) : Reassembled p (received ++ [a.frame]) (σ.call a) :=
  of_refines h.synced.frontier h.delivered h.genuine (h.synced.step a.now hp hf hpos hmissing hne)

/-- **Run**: frames of the publisher that leave `missing` out. -/
theorem run {arrivals : List Arrival} (missing : UInt64) (h : Reassembled p received σ)
    (hp : ∀ a ∈ arrivals, a.frame.header.publisherId = p) (hf : ∀ a ∈ arrivals, 0 < a.frame.seq)
    (hpos : 0 < missing) (hmissing : missing.toNat ∉ seqsOf received)
    (hne : ∀ a ∈ arrivals, a.frame.seq ≠ missing) :
    Reassembled p (received ++ arrivals.map Arrival.frame) (Runs.run Feed.call σ arrivals) := by
  induction arrivals generalizing received σ with
  | nil => simpa using h
  | cons a as ih =>
    have hcall := h.call (hp a (by simp)) (hf a (by simp)) hpos hmissing (hne a (by simp))
    have hmissing' : missing.toNat ∉ seqsOf (received ++ [a.frame]) := by
      rw [seqsOf_append]
      rintro (heq | hin)
      · exact hne a (by simp) (UInt64.toNat_inj.mp heq.symm)
      · exact hmissing hin
    have := ih hcall (fun b hb => hp b (by simp [hb])) (fun b hb => hf b (by simp [hb])) hmissing'
      (fun b hb => hne b (by simp [hb]))
    simpa using this

end Reassembled

/-! ## DATA alone, from a fresh receiver -/

variable (cfg : RecoveryConfig) (streamId p : UInt64)

theorem reassembled_fresh :
    Reassembled p [] (Feed.of (StreamReceiver.new streamId .reliableOrdered cfg)) := by
  refine Reassembled.idle rfl ?_ rfl ?_
  · intro h
    cases h
  · intro key hkey
    simp [StreamReceiver.new, DuplicateFilter.new] at hkey

/-- The sequence `process_data_frame` cannot go past is left out by hypothesis. -/
theorem reassembled_run {arrivals : List Arrival}
    (hp : ∀ a ∈ arrivals, a.frame.header.publisherId = p)
    (hseq : ∀ a ∈ arrivals, 1 ≤ a.frame.seq.toNat ∧ a.frame.seq.toNat ≤ 2 ^ 64 - 2) :
    Reassembled p (arrivals.map Arrival.frame)
      ((StreamReceiver.new streamId .reliableOrdered cfg).feed arrivals) := by
  have hlast : ∀ a ∈ arrivals, a.frame.seq ≠ UInt64.ofNat (2 ^ 64 - 1) := by
    intro a ha heq
    have := (hseq a ha).2
    rw [heq] at this
    exact absurd this (by decide)
  have hpos : ∀ a ∈ arrivals, 0 < a.frame.seq := fun a ha =>
    UInt64.lt_iff_toNat_lt.mpr (hseq a ha).1
  refine (reassembled_fresh cfg streamId p).run _ hp hpos (by decide) ?_ hlast
  rintro ⟨g, hg, -⟩
  cases hg

/-- **DATA alone is exact**: a fresh `ReliableOrdered` receiver delivers the received sequences
up to the least missing one, in order; any other run that receives the same sequences, under
any configuration, delivers the same. -/
theorem reliable_data_exact (arrivals : List Arrival)
    (hp : ∀ a ∈ arrivals, a.frame.header.publisherId = p)
    (hseq : ∀ a ∈ arrivals, 1 ≤ a.frame.seq.toNat ∧ a.frame.seq.toNat ≤ 2 ^ 64 - 2) :
    let delivered := ((StreamReceiver.new streamId .reliableOrdered cfg).feed arrivals).delivered
    (∃ m, IsLeast {k | 0 < k ∧ ∀ a ∈ arrivals, a.frame.seq.toNat ≠ k} m ∧
        (delivered.map fun f => f.seq.toNat) = List.range' 1 (m - 1)) ∧
      (∀ f ∈ delivered, f ∈ arrivals.map Arrival.frame) ∧
      ∀ (cfg' : RecoveryConfig) (arrivals' : List Arrival),
        (∀ a ∈ arrivals', a.frame.header.publisherId = p) →
        (∀ s, (∃ a ∈ arrivals', a.frame.seq = s) ↔ ∃ a ∈ arrivals, a.frame.seq = s) →
        ((StreamReceiver.new streamId .reliableOrdered cfg').feed arrivals').delivered.map OwnedFrame.seq =
          delivered.map OwnedFrame.seq := by
  intro delivered
  have h := reassembled_run cfg streamId p hp hseq
  refine ⟨⟨_, ?_, h.delivered⟩, h.genuine, ?_⟩
  · have hset : {k | 0 < k ∧ k ∉ seqsOf (arrivals.map Arrival.frame)} =
        {k | 0 < k ∧ ∀ a ∈ arrivals, a.frame.seq.toNat ≠ k} := by
      ext k
      simp [seqsOf]
    rw [← hset]
    exact h.synced.frontier
  · intro cfg' arrivals' hp' hsame
    have hseq' : ∀ a ∈ arrivals', 1 ≤ a.frame.seq.toNat ∧ a.frame.seq.toNat ≤ 2 ^ 64 - 2 := by
      intro a ha
      obtain ⟨b, hb, heq⟩ := (hsame a.frame.seq).mp ⟨a, ha, rfl⟩
      rw [← heq]
      exact hseq b hb
    have h' := reassembled_run cfg' streamId p hp' hseq'
    have hset : seqsOf (arrivals'.map Arrival.frame) = seqsOf (arrivals.map Arrival.frame) := by
      ext n
      simp only [seqsOf, List.mem_map, exists_exists_and_eq_and, Set.mem_ofPred_eq]
      constructor
      · rintro ⟨a, ha, rfl⟩
        obtain ⟨b, hb, heq⟩ := (hsame a.frame.seq).mp ⟨a, ha, rfl⟩
        exact ⟨b, hb, by rw [heq]⟩
      · rintro ⟨a, ha, rfl⟩
        obtain ⟨b, hb, heq⟩ := (hsame a.frame.seq).mpr ⟨a, ha, rfl⟩
        exact ⟨b, hb, by rw [heq]⟩
    have hfrontier := h'.synced.frontier.unique (hset ▸ h.synced.frontier)
    apply List.map_injective_iff.mpr fun _ _ => UInt64.toNat_inj.mp
    rw [List.map_map, List.map_map]
    exact (h'.delivered.trans (by rw [hfrontier])).trans h.delivered.symm

/-- Reordering, a duplicate, and a frame behind a gap. -/
theorem reliable_data_exact_shuffled :
    let delivered := ((StreamReceiver.new 1 .reliableOrdered RecoveryConfig.default).feed
      (arrivalsOf 9 [2, 1, 1, 5, 3])).delivered
    (∀ f ∈ delivered, f ∈ (arrivalsOf 9 [2, 1, 1, 5, 3]).map Arrival.frame) ∧
      delivered.map OwnedFrame.seq = [1, 2, 3] :=
  ⟨(reliable_data_exact RecoveryConfig.default 1 9 (arrivalsOf 9 [2, 1, 1, 5, 3])
    (by decide) (by decide)).2.1, by decide +kernel⟩

end Rtdp
