import Rtdp.Transport.Publisher

/-!
# Replaying what was published

A response carries the payload of its frame behind eight bytes of request id,
and leaves from a buffer of 1500 bytes; an encode that fails is passed over in
silence. A published frame can be replayed exactly when its response still fits
both limits.
-/

namespace Rtdp
open BigEndian BufferM

/-- What comes of a list when all but one of its entries give nothing. -/
theorem flatMap_of_unique {α β κ : Type} {xs : List α} {x : α} {key : α → κ} {f : α → List β}
    (nodup : (xs.map key).Nodup) (hx : x ∈ xs) (others : ∀ y ∈ xs, key y ≠ key x → f y = []) :
    xs.flatMap f = f x := by
  induction xs with
  | nil => cases hx
  | cons y ys ih =>
    rw [List.map_cons, List.nodup_cons] at nodup
    rw [List.flatMap_cons]
    rcases List.mem_cons.mp hx with rfl | hx
    · have hrest : ys.flatMap f = [] := by
        apply List.flatMap_eq_nil_iff.mpr
        intro z hz
        apply others z (List.mem_cons_of_mem _ hz)
        intro heq
        exact nodup.1 (heq ▸ List.mem_map_of_mem hz)
      rw [hrest, List.append_nil]
    · have hnone : f y = [] := by
        apply others y List.mem_cons_self
        intro heq
        exact nodup.1 (heq ▸ List.mem_map_of_mem hx)
      rw [hnone, List.nil_append]
      exact ih nodup.2 hx fun z hz => others z (List.mem_cons_of_mem _ hz)

/-- The REPLAY_RESPONSE packets for a sequence. -/
def responsesFor (s : UInt64) (packets : List (List UInt8)) : List (List UInt8) :=
  packets.filter fun packet =>
    (HeaderWords.ofBytes packet).rawMsgType = MessageType.replayResponse.asU16 ∧
      (HeaderWords.ofBytes packet).sequence = s

variable {crc32c : List UInt8 → UInt32} {codec : FrameCodec}

theorem sendFrom1500_ok (crc32c : List UInt8 → UInt32) {frame : OwnedFrame}
    (h : codec.Sendable 1500 frame) : sendFrom1500 crc32c codec frame = [frame.sealed crc32c] := by
  rw [sendFrom1500, FrameCodec.encodePacket_ok crc32c h]

theorem sendFrom1500_refused (crc32c : List UInt8 → UInt32) {frame : OwnedFrame}
    (h : ¬ codec.Sendable 1500 frame) : sendFrom1500 crc32c codec frame = [] := by
  obtain ⟨e, he⟩ := FrameCodec.encodePacket_refused crc32c h
  rw [sendFrom1500, he]

theorem eq_of_mem_sendFrom1500 {frame : OwnedFrame} {packet : List UInt8}
    (h : packet ∈ sendFrom1500 crc32c codec frame) :
    packet = frame.sealed crc32c := by
  by_cases sendable : codec.Sendable 1500 frame
  · rw [sendFrom1500_ok crc32c sendable] at h
    exact List.mem_singleton.mp h
  · rw [sendFrom1500_refused crc32c sendable] at h
    cases h

/-- The response for the frame fits the frame size and the buffer. -/
def ResponseFits (codec : FrameCodec) (f : OwnedFrame) : Prop :=
  56 + f.payload.length ≤ min codec.config.maxFrameSize 1500

instance (codec : FrameCodec) (f : OwnedFrame) : Decidable (ResponseFits codec f) :=
  inferInstanceAs (Decidable (_ ≤ _))

theorem sendable_response {id : UInt64} {f : OwnedFrame} :
    codec.Sendable 1500 (responseFrame id f) ↔ ResponseFits codec f := by
  rw [FrameCodec.sendable_iff, ResponseFits]
  simp only [responseFrame, OwnedFrame.wireLength, List.length_nil, List.length_append, writeU64_length,
    true_and, le_min_iff]
  omega

theorem mem_responsesFor {s id : UInt64} {f : OwnedFrame} :
    (responseFrame id f).sealed crc32c ∈ responsesFor s [(responseFrame id f).sealed crc32c] ↔
      f.seq = s := by
  have htype : (responseFrame id f).header.messageType = .replayResponse := rfl
  have hseq : (responseFrame id f).seq = f.seq := rfl
  rw [responsesFor, List.mem_filter, OwnedFrame.rawMsgType_sealed, OwnedFrame.sequence_sealed]
  simp [htype, hseq]

/-- A frame brings a response for its own sequence, if it fits, and for no other. -/
theorem responsesFor_send (crc32c : List UInt8 → UInt32) (codec : FrameCodec) (s id : UInt64)
    (f : OwnedFrame) :
    responsesFor s (sendFrom1500 crc32c codec (responseFrame id f)) =
      if f.seq = s ∧ ResponseFits codec f then [(responseFrame id f).sealed crc32c] else [] := by
  by_cases fits : ResponseFits codec f
  · rw [sendFrom1500_ok crc32c (sendable_response.mpr fits)]
    by_cases hs : f.seq = s
    · rw [if_pos ⟨hs, fits⟩]
      apply List.filter_eq_self.mpr
      intro packet hpacket
      rw [List.mem_singleton.mp hpacket]
      exact (List.mem_filter.mp (mem_responsesFor.mpr hs)).2
    · rw [if_neg fun h => hs h.1]
      apply List.filter_eq_nil_iff.mpr
      intro packet hpacket hresponse
      rw [List.mem_singleton.mp hpacket] at hresponse
      exact hs (mem_responsesFor.mp (List.mem_filter.mpr ⟨List.mem_singleton_self _, hresponse⟩))
  · rw [sendFrom1500_refused crc32c (mt sendable_response.mp fits), if_neg fun h => fits h.2]
    rfl

/-- An answered range brings one response for a retained frame of the range, if it fits. -/
theorem responsesFor_handle (crc32c : List UInt8 → UInt32) (codec : FrameCodec) {ring : BoundedRingBuffer}
    {f : OwnedFrame} {frames : List OwnedFrame} (streamId publisherId : UInt64)
    {req : ReplayRequestPayload} (retained : ring.get f.seq = some f) (hfrom : req.fromSequence ≤ f.seq)
    (hto : f.seq ≤ req.toSequence) (satisfied : ring.getRange req.fromSequence req.toSequence = .ok frames) :
    responsesFor f.seq (handleReplayRequest crc32c codec ring streamId publisherId req) =
      if ResponseFits codec f then [(responseFrame req.requestId f).sealed crc32c] else [] := by
  have hrange := BoundedRingBuffer.getRange_ok satisfied
  have hmem := hrange.mem retained hfrom hto
  have hhandle : handleReplayRequest crc32c codec ring streamId publisherId req =
      frames.flatMap fun g => sendFrom1500 crc32c codec (responseFrame req.requestId g) := by
    rw [handleReplayRequest, satisfied]
  rw [hhandle, responsesFor, List.filter_flatMap]
  rw [flatMap_of_unique hrange.nodup hmem]
  · refine (responsesFor_send crc32c codec f.seq req.requestId f).trans ?_
    simp only [true_and]
  · intro g _ hne
    refine (responsesFor_send crc32c codec f.seq req.requestId g).trans ?_
    rw [if_neg fun h => hne h.1]

/-- **Published frames are replayable** as far as their response fits: a range that is answered
brings exactly one response for a retained published frame if and only if the payload leaves room
for the eight bytes of request id. -/
theorem published_replayable (crc32c : List UInt8 → UInt32) (pub : UdpPublisher) (nowNs : UInt64)
    (payload : List UInt8) {seq : UInt64} {after : UdpPublisher}
    (published : pub.publish crc32c nowNs payload = (.ok seq, after))
    (ring : BoundedRingBuffer) (retained : ring.get seq = some (pub.nextFrame nowNs payload))
    (req : ReplayRequestPayload) (hfrom : req.fromSequence ≤ seq) (hto : seq ≤ req.toSequence)
    {frames : List OwnedFrame} (satisfied : ring.getRange req.fromSequence req.toSequence = .ok frames) :
    (responsesFor seq (handleReplayRequest crc32c pub.config.codec ring pub.config.streamId
        pub.config.publisherId req)).length = 1 ↔
      56 + payload.length ≤ min pub.config.maxFrameSize 1500 := by
  have fits : pub.Fits payload := by
    by_contra large
    obtain ⟨e, he⟩ := UdpPublisher.publish_refused crc32c nowNs large
    rw [he] at published
    cases published
  rw [UdpPublisher.publish_ok crc32c nowNs fits] at published
  cases published
  have hcount := responsesFor_handle (f := pub.nextFrame nowNs payload) crc32c pub.config.codec
    pub.config.streamId pub.config.publisherId retained hfrom hto satisfied
  have hseq : (pub.nextFrame nowNs payload).seq = pub.sequenceCounter := rfl
  rw [hseq] at hcount
  rw [hcount]
  show _ ↔ ResponseFits pub.config.codec (pub.nextFrame nowNs payload)
  by_cases hfits : ResponseFits pub.config.codec (pub.nextFrame nowNs payload)
  · rw [if_pos hfits]
    exact iff_of_true rfl hfits
  · rw [if_neg hfits]
    exact iff_of_false (by simp) hfits

/-- The default publisher with one published payload. -/
def publishedOnce (payload : List UInt8) : UdpPublisher :=
  (UdpPublisher.default.publish Rtdp.crc32c 0 payload).2

theorem published_replayable_once :
    (responsesFor 1 (handleReplayRequest Rtdp.crc32c UdpPublisherConfig.default.codec
      (publishedOnce [1, 2]).ringBuffer 1 100 ⟨7, 1, 1⟩)).length = 1 := by
  have satisfied : (publishedOnce [1, 2]).ringBuffer.getRange 1 1 =
      .ok [OwnedFrame.newData 1 1 0 100 [1, 2]] := by decide +kernel
  exact (published_replayable Rtdp.crc32c UdpPublisher.default 0 [1, 2]
    (UdpPublisher.publish_ok Rtdp.crc32c 0 (by decide)) (publishedOnce [1, 2]).ringBuffer
    (by decide +kernel) ⟨7, 1, 1⟩ (by decide) (by decide) satisfied).mpr (by decide)

/-- 1420 bytes fit a default DATA frame of 1472 bytes; their response would take 1476. -/
theorem published_unreplayable :
    (UdpPublisher.default.publish Rtdp.crc32c 0 (List.replicate 1420 0)).1 = .ok 1 ∧
      (publishedOnce (List.replicate 1420 0)).ringBuffer.getRange 1 1 =
        .ok [OwnedFrame.newData 1 1 0 100 (List.replicate 1420 0)] ∧
      (responsesFor 1 (handleReplayRequest Rtdp.crc32c UdpPublisherConfig.default.codec
        (publishedOnce (List.replicate 1420 0)).ringBuffer 1 100 ⟨7, 1, 1⟩)).length ≠ 1 := by
  have fits : UdpPublisher.default.Fits (List.replicate 1420 0) := by
    rw [UdpPublisher.Fits, List.length_replicate]
    decide
  refine ⟨?_, by decide +kernel, by decide +kernel⟩
  rw [UdpPublisher.publish_ok Rtdp.crc32c 0 fits]
  rfl

end Rtdp
