import Rtdp.Transport.Subscriber
import Rtdp.Core.Delivery.ReliableOrdered

/-!
# A receiver that waits for frame 1

`process_data_frame` buffers a frame past a gap before it consults any limit,
and the limits of `RecoveryConfig` bound requests, not frames. A receiver whose
first frame is 2 buffers every frame that follows: its memory is bounded by the
number of sequences alone, whatever the configuration.
-/

namespace Rtdp

/-- The buffer never holds more than `N` frames, in any run of a `ReliableOrdered` receiver. -/
def BufferBound (streamId : UInt64) (cfg : RecoveryConfig) (N : ℕ) : Prop :=
  ∀ events : List Event,
    (Runs.run Subscriber.step (Subscriber.new streamId .reliableOrdered cfg)
      events).receiver.recovery.bufferedOutOfOrder.size ≤ N

/-- Some bound stops short of buffering whatever sequences there are behind a missing frame 1. -/
def BoundedMemory (streamId : UInt64) (cfg : RecoveryConfig) : Prop :=
  ∃ N < 2 ^ 64 - 2, BufferBound streamId cfg N

/-- The receiver waits for frame 1 of `p` and has buffered the `n` frames behind it. -/
structure Flooded (p : UInt64) (n : ℕ) (rx : StreamReceiver) : Prop where
  mode : rx.mode = .reliableOrdered
  expected : rx.tracker.expectedFor p = 1
  size : rx.recovery.bufferedOutOfOrder.size = n
  below : ∀ (k : UInt64) f, rx.recovery.bufferedOutOfOrder[k]? = some f → k.toNat < n + 2
  recorded : ∀ key ∈ rx.dedup.recentKeys, key.sequence.toNat < n + 2

namespace Flooded

variable {p : UInt64} {n : ℕ} {rx : StreamReceiver} {f : OwnedFrame}

theorem fresh (cfg : RecoveryConfig) (streamId p : UInt64) :
    Flooded p 0 (StreamReceiver.new streamId .reliableOrdered cfg) := by
  refine ⟨rfl, rfl, rfl, fun k f hf => ?_, fun key hkey => ?_⟩
  · simp at hf
  · simp [StreamReceiver.new, DuplicateFilter.new] at hkey

/-- **Step**: the next frame behind the gap is buffered, whether or not its request is refused. -/
theorem step (h : Flooded p n rx) (now : Instant) (hp : f.header.publisherId = p)
    (hseq : f.seq.toNat = n + 2) : Flooded p (n + 1) (rx.processDataFrame now f).2 := by
  have hexp : rx.expectedOf f = 1 := by rw [StreamReceiver.expectedOf, hp, h.expected]
  have hlt : rx.expectedOf f < f.seq := by
    rw [hexp, UInt64.lt_iff_toNat_lt, UInt64.toNat_one]
    omega
  have hne : f.seq ≠ rx.expectedOf f := fun heq => UInt64.lt_irrefl _ (heq ▸ hlt)
  have fresh : rx.keyOf f ∉ rx.dedup.recentKeys := by
    intro hkey
    have := h.recorded _ hkey
    rw [StreamReceiver.keyOf_sequence] at this
    omega
  rw [StreamReceiver.processDataFrame_gap h.mode now fresh hne fun _ => hlt]
  refine ⟨?_, ?_, ?_, ?_, ?_⟩
  · rw [(StreamReceiver.bufferGap_spec (rx.observed f) now f _ _).2]
    exact h.mode
  · rw [StreamReceiver.bufferGap_tracker, ← hp, StreamReceiver.observed_expectedFor hne, hexp]
  · rw [(StreamReceiver.bufferGap_spec (rx.observed f) now f _ _).2]
    simp only [RecoveryEngine.createReplayRequest_buffered, RecoveryEngine.bufferFrame_buffered,
      StreamReceiver.observed_recovery]
    rw [Std.ExtTreeMap.size_insert, if_neg, h.size]
    rw [Std.ExtTreeMap.contains_iff_mem, Std.ExtTreeMap.mem_iff_isSome_getElem?]
    cases hget : rx.recovery.bufferedOutOfOrder[f.seq]? with
    | none => decide
    | some g =>
      have := h.below _ g hget
      omega
  · intro k g hg
    rw [StreamReceiver.bufferGap_get] at hg
    split at hg
    · rename_i heq
      rw [heq, hseq]
      omega
    · have := h.below k g hg
      omega
  · intro key hkey
    rw [StreamReceiver.bufferGap_dedup] at hkey
    rcases StreamReceiver.observed_recorded hkey with rfl | hkey
    · rw [StreamReceiver.keyOf_sequence, hseq]
      omega
    · have := h.recorded key hkey
      omega

theorem run (cfg : RecoveryConfig) (streamId p : UInt64) (fits : n + 2 ≤ 2 ^ 64) :
    Flooded p n (Runs.run Subscriber.step (Subscriber.new streamId .reliableOrdered cfg)
      (dataEvents p (consecutive 2 n))).receiver := by
  induction n with
  | zero => exact fresh cfg streamId p
  | succ n ih =>
    have hsplit : dataEvents p (consecutive 2 (n + 1)) = dataEvents p (consecutive 2 n) ++
        [.data 0 (OwnedFrame.newData 1 (2 + UInt64.ofNat n) 0 p [])] := by
      simp [dataEvents, arrivalsOf, consecutive, List.range_succ]
    rw [hsplit, Runs.run_append]
    simp only [Runs.run_cons, Runs.run_nil, Subscriber.step, Subscriber.handleData_receiver]
    refine (ih (by omega)).step 0 rfl ?_
    have hsmall : n < 2 ^ 64 := by omega
    show (2 + UInt64.ofNat n).toNat = n + 2
    rw [UInt64.toNat_add, UInt64.toNat_ofNat_of_lt' hsmall]
    have htwo : (2 : UInt64).toNat = 2 := rfl
    omega

end Flooded

/-- Frames 2, 3, … of one publisher exceed any bound. -/
theorem BufferBound.le {streamId : UInt64} {cfg : RecoveryConfig} {N : ℕ}
    (bound : BufferBound streamId cfg N) : 2 ^ 64 - 2 ≤ N := by
  by_contra hlt
  have hsize := (Flooded.run cfg streamId 9 (n := N + 1) (by omega)).size
  have hle := bound (dataEvents 9 (consecutive 2 (N + 1)))
  omega

/-- **Unbounded buffering**: under no configuration is the buffer bounded by less than the number
of sequences behind a missing frame 1. -/
theorem buffer_unbounded (streamId : UInt64) (cfg : RecoveryConfig) : ¬ BoundedMemory streamId cfg := by
  rintro ⟨N, hN, bound⟩
  have := bound.le
  omega

/-- Nor under the default one, with its 16 requests of at most 1000 sequences each. -/
theorem buffer_unbounded_default : ¬ BoundedMemory 1 RecoveryConfig.default := by
  rintro ⟨N, hN, bound⟩
  have := bound.le
  omega

end Rtdp
