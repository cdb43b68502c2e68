import Rtdp.Transport.Datagrams
import Rtdp.Transport.Replay

/-!
# The live path and the replay path

A frame that was published and stored reaches a subscriber in its own DATA
packet or rebuilt from a REPLAY_RESPONSE. The response is a plain frame, with
neither flags nor extensions, and the worker leaves the request id in
`payload_length`. Apart from these the two frames are the same.
-/

namespace Rtdp
open BigEndian BufferM

namespace OwnedFrame

/-- The frame with its checksum field blanked. -/
def withoutChecksum (f : OwnedFrame) : OwnedFrame :=
  { f with header := { f.header with checksum := 0 } }

/-- The frame with checksum and length of the payload blanked. -/
def unmeasured (f : OwnedFrame) : OwnedFrame :=
  { f with header := { f.header with checksum := 0, payloadLength := 0 } }

/-- The frame without flags and extensions. -/
def plain (f : OwnedFrame) : OwnedFrame :=
  { f with header := { f.header with flags := ⟨0⟩, headerLength := 48 }, extensionBytes := [] }

/-- What the replay path makes of a frame. -/
def rebuilt (f : OwnedFrame) : OwnedFrame :=
  { f.plain with header := { f.plain.header with payloadLength := f.header.payloadLength + 8 } }

end OwnedFrame

/-- The same frame on both paths, up to its checksum, with a header that counts its payload. -/
structure PathsAgree (live replayed : OwnedFrame) : Prop where
  same : live.withoutChecksum = replayed.withoutChecksum
  liveLength : live.header.payloadLength.toNat = live.payload.length
  replayedLength : replayed.header.payloadLength.toNat = replayed.payload.length

/-- The length field counts eight bytes more than there are, whatever the frame. -/
theorem not_agree_rebuilt {live replayed : OwnedFrame}
    (h : replayed.withoutChecksum = live.rebuilt.withoutChecksum) : ¬ PathsAgree live replayed := by
  intro agree
  have hlive := congrArg (fun f => f.header.payloadLength) agree.same
  have hrebuilt := congrArg (fun f => f.header.payloadLength) h
  have heq : live.header.payloadLength = live.header.payloadLength + 8 := hlive.trans hrebuilt
  have hnat := congrArg UInt32.toNat heq
  rw [UInt32.toNat_add] at hnat
  have := live.header.payloadLength.toNat_lt
  have h8 : (8 : UInt32).toNat = 8 := rfl
  omega

variable {crc32c : List UInt8 → UInt32} {codec : FrameCodec} {streamId : UInt64}

/-- The worker's frames from the DATA packet of a frame and from its REPLAY_RESPONSE. -/
theorem rebuilt_of_events {f live replayed : OwnedFrame} {id id' : UInt64} {now now' : Instant}
    (extensions_fit : f.extensionBytes.length ≤ 65487) (payload_fits : f.payload.length + 8 < 2 ^ 32)
    (hlive : eventOf crc32c codec streamId now (f.sealed crc32c) = some (.data now live))
    (hreplayed : eventOf crc32c codec streamId now' ((responseFrame id f).sealed crc32c) =
      some (.replayResponse id' replayed)) :
    replayed.withoutChecksum = live.rebuilt.withoutChecksum := by
  have hlen : (responseFrame id f).payload.length = f.payload.length + 8 := by
    simp [responseFrame, Nat.add_comm]
  obtain ⟨view, received, data, rfl⟩ := view_of_data hlive
  obtain ⟨view', received', -, rfl⟩ := view_of_response hreplayed
  have whole := FrameCodec.whole_of_received received extensions_fit (by omega)
  have response_whole := FrameCodec.whole_of_received received' (Nat.zero_le _) (by omega)
  obtain ⟨hheader, -, hpayload, hmagic, hversion⟩ := FrameCodec.view_of_sealed received whole
  obtain ⟨hheader', hext', hpayload', -, -⟩ := FrameCodec.view_of_sealed received' response_whole
  have hmagic' : f.header.magic = MAGIC_RTDP := by rwa [hheader] at hmagic
  have hversion' : f.header.version = RTDP_VERSION_1 := by rwa [hheader] at hversion
  have hrest : view'.payload.drop 8 = f.payload := by
    rw [hpayload']
    exact List.drop_left' (writeU64_length id)
  have hcount : UInt32.ofNat (responseFrame id f).payload.length = UInt32.ofNat f.payload.length + 8 := by
    rw [hlen, UInt32.ofNat_add]
    rfl
  rw [data] at hheader
  simp only [OwnedFrame.withoutChecksum, OwnedFrame.rebuilt, OwnedFrame.plain, recoveredFrame,
    FrameView.toOwned, hrest,
    hpayload]
  rw [hheader', hext', hheader]
  simp only [OwnedFrame.sealedHeader, hcount]
  simp [responseFrame, hmagic', hversion']

/-- **Both paths deliver the same message**: of a DATA frame published and stored by `publish_frame`,
the replay is the plain frame with the same metadata and payload. -/
theorem paths_same_message (crc32c : List UInt8 → UInt32) (pub : UdpPublisher) (f : OwnedFrame)
    (extensions_fit : f.extensionBytes.length ≤ 65487) {n : Nat} {after : UdpPublisher}
    (published : pub.publishFrame crc32c f true = (.ok n, after))
    {packet : List UInt8} (sent : after.sent = pub.sent ++ [packet]) (req : ReplayRequestPayload)
    {frames : List OwnedFrame} (hfrom : req.fromSequence ≤ f.seq) (hto : f.seq ≤ req.toSequence)
    (satisfied : after.ringBuffer.getRange req.fromSequence req.toSequence = .ok frames)
    {response : List UInt8} (answered : response ∈ responsesFor f.seq (handleReplayRequest crc32c
      pub.config.codec after.ringBuffer pub.config.streamId pub.config.publisherId req))
    (codec : FrameCodec) (streamId : UInt64) (now now' : Instant) {live replayed : OwnedFrame} {id : UInt64}
    (hlive : eventOf crc32c codec streamId now packet = some (.data now live))
    (hreplayed : eventOf crc32c codec streamId now' response = some (.replayResponse id replayed)) :
    replayed.unmeasured = live.plain.unmeasured ∧
      live.header.payloadLength.toNat = live.payload.length := by
  obtain ⟨-, rfl⟩ := UdpPublisher.publishFrame_stored published
  obtain rfl : f.sealed crc32c = packet := List.singleton_injective (List.append_cancel_left sent)
  -- the range holds the frame that was pushed last
  have retained : (pub.ringBuffer.push f).get f.seq = some f := by
    obtain ⟨g, hg⟩ := (BoundedRingBuffer.getRange_ok satisfied).exists_get hfrom hto
    rw [hg, BoundedRingBuffer.get_push hg]
  rw [responsesFor_handle crc32c pub.config.codec pub.config.streamId pub.config.publisherId retained
    hfrom hto satisfied] at answered
  have fits : ResponseFits pub.config.codec f := by
    by_contra hfits
    rw [if_neg hfits] at answered
    cases answered
  rw [if_pos fits, List.mem_singleton] at answered
  subst answered
  have payload_fits : f.payload.length + 8 < 2 ^ 32 := by
    rw [ResponseFits, le_min_iff] at fits
    omega
  have hrebuilt := rebuilt_of_events extensions_fit payload_fits hlive hreplayed
  have hunmeasured := congrArg OwnedFrame.unmeasured hrebuilt
  refine ⟨hunmeasured, ?_⟩
  obtain ⟨view, received, -, rfl⟩ := view_of_data hlive
  exact FrameCodec.payloadLength_of_received received

/-- The frame with flags, a record and two bytes, published and stored by a default publisher. -/
def paddedPublisher : UdpPublisher :=
  (UdpPublisher.default.publishFrame Rtdp.crc32c FrameCodec.paddedFrame true).2

/-- The frame as the replay path delivers it, with the checksum of the response. -/
def paddedReplayed : OwnedFrame :=
  { FrameCodec.paddedFrame.rebuilt with
    header := { FrameCodec.paddedFrame.rebuilt.header with checksum := 0x55bfe9cc } }

theorem paths_same_message_padded :
    paddedReplayed.unmeasured = FrameCodec.paddedFrame.plain.unmeasured ∧
      FrameCodec.paddedFrame.header.payloadLength.toNat = FrameCodec.paddedFrame.payload.length := by
  have published : UdpPublisher.default.publishFrame Rtdp.crc32c FrameCodec.paddedFrame true =
      (.ok 58, paddedPublisher) := by
    apply Prod.ext
    · decide +kernel
    · rw [paddedPublisher]
  have sent : paddedPublisher.sent = [] ++ [FrameCodec.paddedFrame.sealed Rtdp.crc32c] := by
    decide +kernel
  have satisfied : paddedPublisher.ringBuffer.getRange 101 101 = .ok [FrameCodec.paddedFrame] := by
    decide +kernel
  exact paths_same_message Rtdp.crc32c UdpPublisher.default FrameCodec.paddedFrame (by decide) published
    sent ⟨7, 101, 101⟩ (by decide) (by decide) satisfied
    (show (responseFrame 7 FrameCodec.paddedFrame).sealed Rtdp.crc32c ∈ _ by decide +kernel)
    UdpPublisherConfig.default.codec 42 0 0
    (show eventOf _ _ _ _ _ = some (.data 0 FrameCodec.paddedFrame) by decide +kernel)
    (show eventOf _ _ _ _ _ = some (.replayResponse 7 paddedReplayed) by decide +kernel)

/-- The replayed frame has lost flags and record, and claims ten bytes. -/
theorem paths_disagree :
    eventOf Rtdp.crc32c UdpPublisherConfig.default.codec 42 0
        (FrameCodec.paddedFrame.sealed Rtdp.crc32c) =
        some (.data 0 FrameCodec.paddedFrame) ∧
      handleReplayRequest Rtdp.crc32c UdpPublisherConfig.default.codec
          paddedPublisher.ringBuffer 1 100 ⟨7, 101, 101⟩ =
        [(responseFrame 7 FrameCodec.paddedFrame).sealed Rtdp.crc32c] ∧
      eventOf Rtdp.crc32c UdpPublisherConfig.default.codec 42 0
          ((responseFrame 7 FrameCodec.paddedFrame).sealed Rtdp.crc32c) =
        some (.replayResponse 7 paddedReplayed) ∧
      ¬ PathsAgree FrameCodec.paddedFrame paddedReplayed :=
  ⟨by decide +kernel, by decide +kernel, by decide +kernel, not_agree_rebuilt rfl⟩

end Rtdp
