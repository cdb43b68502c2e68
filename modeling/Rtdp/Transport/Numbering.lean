import Rtdp.Transport.Publisher
import Rtdp.Lib.Runs

/-!
# Failed calls of `publish`

`publish` takes a number and stores the frame before it encodes it. A payload
that does not fit has then used up a sequence and a slot of the ring for a frame
nobody will ever see: the wire shows a gap, and a replay request for it finds a
frame that was never sent.
-/

namespace Rtdp

/-- One call of `publish`: the clock it reads, and the payload. -/
structure PublishCall where
  nowNs : UInt64
  payload : List UInt8
  deriving DecidableEq, Repr

namespace UdpPublisher

variable {crc32c : List UInt8 → UInt32} {pub : UdpPublisher}

def call (crc32c : List UInt8 → UInt32) (pub : UdpPublisher) (c : PublishCall) : UdpPublisher :=
  (pub.publish crc32c c.nowNs c.payload).2

/-- Whether the payload fits or not, a call takes a number and stores its frame. -/
theorem call_stores (crc32c : List UInt8 → UInt32) (pub : UdpPublisher) (c : PublishCall) :
    (pub.call crc32c c).config = pub.config ∧
      (pub.call crc32c c).sequenceCounter = pub.sequenceCounter + 1 ∧
      (pub.call crc32c c).ringBuffer = pub.ringBuffer.push (pub.nextFrame c.nowNs c.payload) := by
  by_cases fits : pub.Fits c.payload
  · rw [call, publish_ok crc32c c.nowNs fits]
    exact ⟨rfl, rfl, rfl⟩
  · obtain ⟨e, he⟩ := publish_refused crc32c c.nowNs fits
    rw [call, he]
    exact ⟨rfl, rfl, rfl⟩

/-- If the call fails, counter and ring are what they were. -/
def UntouchedByFailure (crc32c : List UInt8 → UInt32) (pub : UdpPublisher) (c : PublishCall) : Prop :=
  ∀ e, (pub.publish crc32c c.nowNs c.payload).1 = .error e →
    (pub.call crc32c c).sequenceCounter = pub.sequenceCounter ∧
      (pub.call crc32c c).ringBuffer = pub.ringBuffer

/-- The sequences on the wire. -/
def sentSequences (pub : UdpPublisher) : List UInt64 :=
  pub.sent.map fun packet => (HeaderWords.ofBytes packet).sequence

/-- The ring holds only frames that were sent. -/
def RetainsSent (crc32c : List UInt8 → UInt32) (pub : UdpPublisher) : Prop :=
  ∀ f, pub.ringBuffer.Holds f → f.sealed crc32c ∈ pub.sent

/-- A failing call takes a number. -/
theorem fits_of_untouched {c : PublishCall} (untouched : pub.UntouchedByFailure crc32c c) :
    pub.Fits c.payload := by
  by_contra large
  obtain ⟨e, he⟩ := publish_refused crc32c c.nowNs large
  have hcounter := (untouched (.err e) (by rw [he])).1
  rw [(call_stores crc32c pub c).2.1] at hcounter
  simp at hcounter

theorem untouched_of_fits {c : PublishCall} (fits : pub.Fits c.payload) :
    pub.UntouchedByFailure crc32c c := by
  intro e he
  rw [publish_ok crc32c c.nowNs fits] at he
  cases he

/-- After `n` calls that succeeded: `1..n` are on the wire, and nothing else is in the ring. -/
structure Numbered (crc32c : List UInt8 → UInt32) (config : UdpPublisherConfig) (n : ℕ)
    (pub : UdpPublisher) : Prop where
  config : pub.config = config
  counter : pub.sequenceCounter = 1 + UInt64.ofNat n
  sequences : pub.sentSequences = consecutive 1 n
  retains : pub.RetainsSent crc32c

namespace Numbered

variable {config : UdpPublisherConfig} {n : ℕ}

theorem fresh (pos : 0 < config.ringBufferCapacity) : Numbered crc32c config 0 (UdpPublisher.new config pos) := by
  refine ⟨rfl, rfl, rfl, fun f hf => ?_⟩
  exact absurd hf (BoundedRingBuffer.new_holds _ pos)

/-- **Step**: a payload that fits goes out under the next number. -/
theorem step (h : Numbered crc32c config n pub) {c : PublishCall} (fits : pub.Fits c.payload) :
    Numbered crc32c config (n + 1) (pub.call crc32c c) := by
  rw [call, publish_ok crc32c c.nowNs fits]
  refine ⟨h.config, ?_, ?_, ?_⟩
  · dsimp only
    rw [h.counter, UInt64.ofNat_add, UInt64.add_assoc]
    rfl
  · have hseq : (HeaderWords.ofBytes ((pub.nextFrame c.nowNs c.payload).sealed crc32c)).sequence =
        1 + UInt64.ofNat n := by
      rw [OwnedFrame.sequence_sealed, ← h.counter]
      rfl
    have hold := h.sequences
    unfold sentSequences at hold ⊢
    rw [List.map_append, hold, List.map_singleton, hseq]
    simp [consecutive, List.range_succ]
  · intro f hf
    rcases BoundedRingBuffer.holds_of_push hf with rfl | hf
    · simp
    · exact List.mem_append_left _ (h.retains f hf)

theorem sent_length (h : Numbered crc32c config n pub) : pub.sent.length = n := by
  have hlen := congrArg List.length h.sequences
  simpa [sentSequences, consecutive] using hlen

/-- **Run**: calls that all fit. -/
theorem run (h : Numbered crc32c config n pub) (calls : List PublishCall)
    (fits : ∀ c ∈ calls, 48 + c.payload.length ≤ config.maxFrameSize) :
    Numbered crc32c config (n + calls.length) (Runs.run (call crc32c) pub calls) ∧
      Runs.Each (call crc32c) (UntouchedByFailure crc32c) pub calls := by
  induction calls generalizing n pub with
  | nil => exact ⟨h, trivial⟩
  | cons c cs ih =>
    obtain ⟨hc, hcs⟩ := List.forall_mem_cons.mp fits
    have hfits : pub.Fits c.payload := by rwa [Fits, h.config]
    obtain ⟨hrun, heach⟩ := ih (h.step hfits) hcs
    rw [Nat.add_right_comm] at hrun
    exact ⟨hrun, untouched_of_fits hfits, heach⟩

end Numbered

/-- Calls that leave no trace when they fail all fit. -/
theorem all_fit {calls : List PublishCall}
    (each : Runs.Each (call crc32c) (UntouchedByFailure crc32c) pub calls) :
    ∀ c ∈ calls, 48 + c.payload.length ≤ pub.config.maxFrameSize := by
  induction calls generalizing pub with
  | nil => simp
  | cons c cs ih =>
    have hfits := fits_of_untouched each.1
    refine List.forall_mem_cons.mpr ⟨hfits, ?_⟩
    have hrest := ih each.2
    rw [call, publish_ok crc32c c.nowNs hfits] at hrest
    exact hrest

end UdpPublisher

/-- Failed calls leave no trace: neither in the publisher nor on the wire nor in the ring. -/
structure FailuresTraceless (crc32c : List UInt8 → UInt32) (pub : UdpPublisher)
    (calls : List PublishCall) : Prop where
  untouched : Runs.Each (UdpPublisher.call crc32c) (UdpPublisher.UntouchedByFailure crc32c) pub calls
  numbered : ((Runs.run (UdpPublisher.call crc32c) pub calls).sentSequences.map UInt64.toNat) =
    List.range' 1 (Runs.run (UdpPublisher.call crc32c) pub calls).sent.length
  retains : (Runs.run (UdpPublisher.call crc32c) pub calls).RetainsSent crc32c

/-- **Failed calls leave no trace** exactly when there are none: every payload fits, and the `u64`
numbers suffice. -/
theorem publish_failure_traceless (crc32c : List UInt8 → UInt32) (config : UdpPublisherConfig)
    (pos : 0 < config.ringBufferCapacity) (calls : List PublishCall) :
    FailuresTraceless crc32c (UdpPublisher.new config pos) calls ↔
      (∀ c ∈ calls, 48 + c.payload.length ≤ config.maxFrameSize) ∧ calls.length < 2 ^ 64 := by
  have hfresh : UdpPublisher.Numbered crc32c config 0 (UdpPublisher.new config pos) := .fresh pos
  constructor
  · rintro ⟨untouched, numbered, -⟩
    have hfit := UdpPublisher.all_fit untouched
    refine ⟨hfit, ?_⟩
    obtain ⟨hrun, -⟩ := hfresh.run calls hfit
    rw [hrun.sequences, hrun.sent_length, Nat.zero_add] at numbered
    -- the last number is that of some `u64`
    by_contra hlen
    have hlast : calls.length ∈ (consecutive 1 calls.length).map UInt64.toNat := by
      rw [numbered, List.mem_range'_1]
      omega
    obtain ⟨s, -, hs⟩ := List.mem_map.mp hlast
    have := s.toNat_lt
    omega
  · rintro ⟨hfit, hlen⟩
    obtain ⟨hrun, heach⟩ := hfresh.run calls hfit
    refine ⟨heach, ?_, hrun.retains⟩
    rw [hrun.sequences, hrun.sent_length, Nat.zero_add]
    apply consecutive_toNat
    rw [UInt64.toNat_one]
    omega

/-- Two payloads of one byte, in frames of at most 49 bytes. -/
def smallCalls : List PublishCall := [⟨0, [1]⟩, ⟨0, [2]⟩]

/-- A publisher of stream 1 that retains four frames of at most 49 bytes. -/
def smallConfig : UdpPublisherConfig := { UdpPublisherConfig.default with
  ringBufferCapacity := 4
  maxFrameSize := 49 }

theorem publish_failure_traceless_small :
    FailuresTraceless crc32c (UdpPublisher.new smallConfig (by decide)) smallCalls :=
  (publish_failure_traceless crc32c smallConfig (by decide) smallCalls).mpr ⟨by decide, by decide⟩

/-- A payload of two bytes between them fails, and 2 is missing on the wire. -/
theorem publish_failure_leaves_gap :
    ¬ FailuresTraceless crc32c (UdpPublisher.new smallConfig (by decide))
      [⟨0, [1]⟩, ⟨0, [2, 2]⟩, ⟨0, [3]⟩] := by
  rintro ⟨-, numbered, -⟩
  exact absurd numbered (by decide +kernel)

end Rtdp
