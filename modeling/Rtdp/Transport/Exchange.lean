import Rtdp.Core.Recovery.Payloads
import Rtdp.Transport.Datagrams
import Rtdp.Transport.Replay

/-!
# A replay exchange

A request travels from the subscriber to the publisher, and the answers travel
back. What each side reads is what the other side meant: the three numbers of the
request, the retained frames, or the interval that is not retained.
-/

namespace Rtdp
open BigEndian BufferM

/-- What a replayed frame keeps of the stored one. -/
structure Replayed (stored replayed : OwnedFrame) : Prop where
  data : replayed.header.messageType = .data
  streamId : replayed.header.streamId = stored.header.streamId
  sequence : replayed.header.sequence = stored.header.sequence
  timestampNs : replayed.header.timestampNs = stored.header.timestampNs
  publisherId : replayed.header.publisherId = stored.header.publisherId
  payload : replayed.payload = stored.payload

variable {codec : FrameCodec} {streamId publisherId : UInt64}

/-! ## Control frames -/

theorem sendable_controlFrame {t : MessageType} {payload : List UInt8}
    (room : 72 ≤ codec.config.maxFrameSize) (width : payload.length = 24) :
    codec.Sendable 1500 (controlFrame t streamId publisherId payload) := by
  rw [FrameCodec.sendable_iff]
  simp only [controlFrame, OwnedFrame.wireLength, List.length_nil, width]
  exact ⟨trivial, room, by decide⟩

/-- A control frame of three words is received as it was sent. -/
theorem receive_controlFrame (crc32c : List UInt8 → UInt32) (streamId publisherId : UInt64)
    {t : MessageType} {payload : List UInt8}
    (room : 72 ≤ codec.config.maxFrameSize) (width : payload.length = 24)
    (message_type : MessageType.fromU16 t.asU16 = .ok t) (schema : t.Schema payload) :
    codec.receive crc32c ((controlFrame t streamId publisherId payload).sealed crc32c) =
      some ((controlFrame t streamId publisherId payload).sealedView crc32c) := by
  apply FrameCodec.receive_sealed crc32c (sendable_controlFrame room width)
  · rfl
  · rfl
  · rfl
  · exact message_type
  · show payload.length < 2 ^ 32
    omega
  · exact schema

/-! ## The request -/

/-- The frame of a request. -/
def requestFrame (streamId : UInt64) (req : ReplayRequestPayload) : OwnedFrame :=
  controlFrame .replayRequest streamId 0 (threeWords req.requestId req.fromSequence req.toSequence)

theorem sendReplayRequest_eq (crc32c : List UInt8 → UInt32) (req : ReplayRequestPayload)
    (room : 72 ≤ codec.config.maxFrameSize) :
    sendReplayRequest crc32c codec streamId req = [(requestFrame streamId req).sealed crc32c] := by
  have written := req.exec_encode (List.length_replicate : (List.replicate 24 (0 : UInt8)).length = 24)
  rw [sendReplayRequest, written]
  exact sendFrom1500_ok crc32c (sendable_controlFrame room threeWords_length)

/-- The publisher reads the request that was sent. -/
theorem requestOf_sealed (crc32c : List UInt8 → UInt32) {req : ReplayRequestPayload}
    (room : 72 ≤ codec.config.maxFrameSize) (ordered : req.fromSequence ≤ req.toSequence) :
    requestOf crc32c codec ((requestFrame streamId req).sealed crc32c) = some req := by
  have schema : MessageType.replayRequest.Schema
      (threeWords req.requestId req.fromSequence req.toSequence) := by
    refine ⟨threeWords_length, ?_⟩
    rwa [threeWords_second, threeWords_third, readU64_writeU64, readU64_writeU64]
  have received := receive_controlFrame crc32c streamId 0 room threeWords_length rfl schema
  rw [requestFrame, requestOf_eq received rfl]
  exact congrArg Except.toOption (ReplayRequestPayload.decode_threeWords ordered)

/-! ## The answers -/

/-- The response for a stored frame is received as the frame, under the id of the request. -/
theorem eventOf_response (crc32c : List UInt8 → UInt32) (now : Instant) {id : UInt64} {f : OwnedFrame}
    (fits : ResponseFits codec f) (own : f.header.streamId = streamId) :
    ∃ g, eventOf crc32c codec streamId now ((responseFrame id f).sealed crc32c) =
        some (.replayResponse id g) ∧ Replayed f g := by
  have hlen : (responseFrame id f).payload.length = 8 + f.payload.length := by
    simp [responseFrame]
  have received : codec.receive crc32c ((responseFrame id f).sealed crc32c) =
      some ((responseFrame id f).sealedView crc32c) := by
    apply FrameCodec.receive_sealed crc32c (sendable_response.mpr fits)
    · rfl
    · rfl
    · rfl
    · rfl
    · rw [ResponseFits, le_min_iff] at fits
      omega
    · show 8 ≤ (responseFrame id f).payload.length
      omega
  have first : (responseFrame id f).payload.take 8 = writeU64 id := List.take_left' (writeU64_length id)
  have rest : (responseFrame id f).payload.drop 8 = f.payload := List.drop_left' (writeU64_length id)
  have long : 8 ≤ ((responseFrame id f).sealedView crc32c).payload.length := by
    show 8 ≤ (responseFrame id f).payload.length
    omega
  have event := eventOf_replayResponse now received rfl own long
  refine ⟨recoveredFrame ((responseFrame id f).sealedView crc32c), ?_, ⟨rfl, rfl, rfl, rfl, rfl, rest⟩⟩
  rw [event]
  show some (Event.replayResponse (readU64 ((responseFrame id f).payload.take 8)) _) = _
  rw [first, readU64_writeU64]

/-- The notice that an interval is not retained is received as such. -/
theorem eventOf_unavailable (crc32c : List UInt8 → UInt32) (streamId streamId' publisherId : UInt64)
    (now : Instant) (unavail : ReplayUnavailablePayload) (room : 72 ≤ codec.config.maxFrameSize) :
    sendFrom1500 crc32c codec (unavailableFrame streamId publisherId unavail) =
        [(unavailableFrame streamId publisherId unavail).sealed crc32c] ∧
      eventOf crc32c codec streamId' now ((unavailableFrame streamId publisherId unavail).sealed crc32c) =
        some (.replayUnavailable unavail) := by
  have written := unavail.exec_encode (List.length_replicate : (List.replicate 24 (0 : UInt8)).length = 24)
  have schema : MessageType.replayUnavailable.Schema
      (threeWords unavail.requestId unavail.firstUnavailable unavail.lastUnavailable) := threeWords_length
  have received := receive_controlFrame crc32c streamId publisherId room threeWords_length rfl schema
  rw [unavailableFrame, written]
  refine ⟨sendFrom1500_ok crc32c (sendable_controlFrame room threeWords_length), ?_⟩
  exact eventOf_replayUnavailable now received rfl unavail.decode_threeWords

/-- The packets answer the frames one by one. -/
theorem responses_replayed (crc32c : List UInt8 → UInt32) (now : Instant) (id : UInt64)
    {frames : List OwnedFrame} (own : ∀ f ∈ frames, f.header.streamId = streamId)
    (fits : ∀ f ∈ frames, ResponseFits codec f) :
    List.Forall₂ (fun f packet => ∃ g, eventOf crc32c codec streamId now packet =
        some (.replayResponse id g) ∧ Replayed f g)
      frames (frames.flatMap fun f => sendFrom1500 crc32c codec (responseFrame id f)) := by
  induction frames with
  | nil => exact .nil
  | cons f fs ih =>
    obtain ⟨hown, howns⟩ := List.forall_mem_cons.mp own
    obtain ⟨hfits, hfitss⟩ := List.forall_mem_cons.mp fits
    rw [List.flatMap_cons, sendFrom1500_ok crc32c (sendable_response.mpr hfits), List.singleton_append]
    apply List.Forall₂.cons
    · exact eventOf_response crc32c now hfits hown
    · exact ih howns hfitss

/-! ## The exchange -/

/-- A request of the subscriber of `streamId`, and what comes back from the ring of a publisher. -/
structure FaithfulExchange (crc32c : List UInt8 → UInt32) (codec : FrameCodec) (ring : BoundedRingBuffer)
    (streamId ownStreamId publisherId : UInt64) (now : Instant) (req : ReplayRequestPayload) : Prop where
  request : ∃ packet, sendReplayRequest crc32c codec streamId req = [packet] ∧
    requestOf crc32c codec packet = some req
  retained : ∀ frames, ring.getRange req.fromSequence req.toSequence = .ok frames →
    (frames.map fun f => f.seq.toNat) =
        List.range' req.fromSequence.toNat (req.toSequence.toNat + 1 - req.fromSequence.toNat) ∧
      ∀ f ∈ frames, ring.get f.seq = some f
  answered : ∀ frames, ring.getRange req.fromSequence req.toSequence = .ok frames →
    (∀ f ∈ frames, ResponseFits codec f) →
    List.Forall₂ (fun f packet => ∃ g, eventOf crc32c codec streamId now packet =
        some (.replayResponse req.requestId g) ∧ Replayed f g)
      frames (handleReplayRequest crc32c codec ring ownStreamId publisherId req)
  unavailable : ∀ code first last,
    ring.getRange req.fromSequence req.toSequence = .error (code, first, last) →
    ∃ packet, handleReplayRequest crc32c codec ring ownStreamId publisherId req = [packet] ∧
      eventOf crc32c codec streamId now packet =
        some (.replayUnavailable ⟨req.requestId, first, last⟩)

/-- **A replay exchange is faithful**, whatever the ring holds of the stream and whatever is asked for. -/
theorem replay_exchange (crc32c : List UInt8 → UInt32) (codec : FrameCodec)
    (room : 72 ≤ codec.config.maxFrameSize) (ring : BoundedRingBuffer) (streamId : UInt64)
    (own : ∀ f, ring.Holds f → f.header.streamId = streamId) (ownStreamId publisherId : UInt64)
    (now : Instant) (req : ReplayRequestPayload) (ordered : req.fromSequence ≤ req.toSequence) :
    FaithfulExchange crc32c codec ring streamId ownStreamId publisherId now req where
  request := ⟨_, sendReplayRequest_eq crc32c req room, requestOf_sealed crc32c room ordered⟩
  retained := by
    intro frames satisfied
    have range := BoundedRingBuffer.getRange_ok satisfied
    exact ⟨range.range, range.found⟩
  answered := by
    intro frames satisfied fits
    have found := (BoundedRingBuffer.getRange_ok satisfied).found
    rw [handleReplayRequest, satisfied]
    apply responses_replayed crc32c now req.requestId
    · intro f hf
      exact own f (BoundedRingBuffer.holds_of_get (found f hf))
    · exact fits
  unavailable := by
    intro code first last missing
    obtain ⟨sent, event⟩ := eventOf_unavailable crc32c ownStreamId streamId publisherId now
      ⟨req.requestId, first, last⟩ room
    rw [handleReplayRequest, missing]
    exact ⟨_, sent, event⟩

/-- A ring of four slots with two frames of stream 1. -/
def ringOfTwo : BoundedRingBuffer :=
  ((BoundedRingBuffer.new 4 (by decide)).push (OwnedFrame.newData 1 1 0 100 [1, 2])).push
    (OwnedFrame.newData 1 2 5 100 [3])

/-- Both are asked for, and answered in their order. -/
theorem replay_exchange_both :
    ringOfTwo.getRange 1 2 = .ok [.newData 1 1 0 100 [1, 2], .newData 1 2 5 100 [3]] ∧
      FaithfulExchange crc32c UdpPublisherConfig.default.codec ringOfTwo 1 1 100 0 ⟨7, 1, 2⟩ := by
  refine ⟨by decide +kernel, ?_⟩
  apply replay_exchange
  · decide
  · intro f hf
    rcases BoundedRingBuffer.holds_of_push hf with rfl | hf
    · rfl
    · rcases BoundedRingBuffer.holds_of_push hf with rfl | hf
      · rfl
      · exact absurd hf (BoundedRingBuffer.new_holds 4 _)
  · decide

end Rtdp
