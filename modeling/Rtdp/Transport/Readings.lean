import Rtdp.Transport.Exchange

/-!
# What is read of a sent packet

A UDP datagram carries at most 65507 bytes, so that no length field of a frame
that was sent wraps. A receiver whose buffer is too small for a packet does not
take what is left of it for a frame: the length fields disagree with the size.
What either end reads of a packet is therefore what the other end sealed.
-/

namespace Rtdp
open BigEndian BufferM

/-- The payload of an UDP datagram over IPv4; `send_to` fails for more. -/
def MAX_DATAGRAM : Nat := 65507

variable {crc32c : List UInt8 → UInt32} {codec : FrameCodec} {frame : OwnedFrame} {view : FrameView}
  {streamId : UInt64} {now : Instant}

namespace FrameCodec

/-- What is received of a datagram has not been cut off. -/
theorem whole_of_datagram (received : codec.receive crc32c (frame.sealed crc32c) = some view)
    (small : (frame.sealed crc32c).length ≤ MAX_DATAGRAM) :
    frame.wireLength ≤ codec.config.maxFrameSize := by
  have hlen : (frame.sealed crc32c).length = frame.wireLength := frame.wireBytes_length _
  rw [hlen, OwnedFrame.wireLength, MAX_DATAGRAM] at small
  exact whole_of_received received (by omega) (by omega)

/-- The view of a datagram is that of the frame that was sealed, of its type. -/
structure Reads (crc32c : List UInt8 → UInt32) (frame : OwnedFrame) (view : FrameView) : Prop where
  header : view.header = { frame.sealedHeader crc32c with messageType := view.header.messageType }
  extensionBytes : view.extensionBytes = frame.extensionBytes
  payload : view.payload = frame.payload
  messageType : MessageType.fromU16 frame.header.messageType.asU16 = .ok view.header.messageType

theorem reads_of_received (received : codec.receive crc32c (frame.sealed crc32c) = some view)
    (small : (frame.sealed crc32c).length ≤ MAX_DATAGRAM) : Reads crc32c frame view := by
  have whole := whole_of_datagram received small
  have hlen : (frame.sealed crc32c).length = frame.wireLength := frame.wireBytes_length _
  obtain ⟨header, extensionBytes, payload, -, -⟩ := view_of_sealed received whole
  obtain ⟨w, tlvs, t, grammar, hview, -⟩ := frameOf_received received
  rw [List.take_of_length_le (by omega)] at grammar
  obtain ⟨rfl, -, -⟩ := parts_of_sealed grammar
  refine ⟨header, extensionBytes, payload, ?_⟩
  rw [hview]
  exact grammar.message_type

end FrameCodec

/-! ## The worker -/

/-- The header fields that a frame and its view share. -/
theorem FrameCodec.Reads.replayed (reads : FrameCodec.Reads crc32c frame view) {g : OwnedFrame}
    (data : g.header.messageType = .data)
    (header : g.header = { view.header with messageType := g.header.messageType })
    (payload : g.payload = frame.payload) : Replayed frame g where
  data := data
  streamId := by rw [header, reads.header]; rfl
  sequence := by rw [header, reads.header]; rfl
  timestampNs := by rw [header, reads.header]; rfl
  publisherId := by rw [header, reads.header]; rfl
  payload := payload

/-- The packet of a DATA frame is a DATA event with that frame, if it is one. -/
theorem event_of_data {e : Event} (data : frame.header.messageType = .data)
    (small : (frame.sealed crc32c).length ≤ MAX_DATAGRAM)
    (h : eventOf crc32c codec streamId now (frame.sealed crc32c) = some e) :
    ∃ g, e = .data now g ∧ Replayed frame g := by
  rw [eventOf] at h
  obtain ⟨view, received, h⟩ := Option.bind_eq_some_iff.mp h
  have reads := FrameCodec.reads_of_received received small
  have htype : view.header.messageType = .data := by
    have := reads.messageType
    rw [data] at this
    exact (Except.ok.inj this).symm
  rw [htype] at h
  dsimp only at h
  split at h
  · cases h
  · cases h
    exact ⟨view.toOwned, rfl, reads.replayed htype rfl reads.payload⟩

/-- The packet of a response is the replay of its frame for its request, if it is an event. -/
theorem event_of_response {e : Event} {id : UInt64}
    (small : ((responseFrame id frame).sealed crc32c).length ≤ MAX_DATAGRAM)
    (h : eventOf crc32c codec streamId now ((responseFrame id frame).sealed crc32c) = some e) :
    ∃ g, e = .replayResponse id g ∧ Replayed frame g := by
  rw [eventOf] at h
  obtain ⟨view, received, h⟩ := Option.bind_eq_some_iff.mp h
  have reads := FrameCodec.reads_of_received received small
  have htype : view.header.messageType = .replayResponse := (Except.ok.inj reads.messageType).symm
  have hpayload : view.payload = writeU64 id ++ frame.payload := reads.payload
  rw [htype] at h
  dsimp only at h
  split at h
  · cases h
  split at h
  · cases h
    have hid : readU64 (view.payload.take 8) = id := by
      rw [hpayload, List.take_left' (writeU64_length id), readU64_writeU64]
    have hrest : (recoveredFrame view).payload = frame.payload := by
      show view.payload.drop 8 = frame.payload
      rw [hpayload, List.drop_left' (writeU64_length id)]
    have replayed := reads.replayed (g := { recoveredFrame view with payload := view.payload }) rfl rfl
      reads.payload
    refine ⟨recoveredFrame view, by rw [hid], ⟨rfl, ?_, ?_, ?_, ?_, hrest⟩⟩
    · exact replayed.streamId
    · exact replayed.sequence
    · exact replayed.timestampNs
    · exact replayed.publisherId
  · cases h

/-- The packet of a notice is that notice, if it is an event. -/
theorem event_of_notice {e : Event} {ownStreamId publisherId : UInt64} {unavail : ReplayUnavailablePayload}
    (small : ((unavailableFrame ownStreamId publisherId unavail).sealed crc32c).length ≤ MAX_DATAGRAM)
    (h : eventOf crc32c codec streamId now
      ((unavailableFrame ownStreamId publisherId unavail).sealed crc32c) = some e) :
    e = .replayUnavailable unavail := by
  rw [eventOf] at h
  obtain ⟨view, received, h⟩ := Option.bind_eq_some_iff.mp h
  have reads := FrameCodec.reads_of_received received small
  have htype : view.header.messageType = .replayUnavailable := (Except.ok.inj reads.messageType).symm
  have written := unavail.exec_encode (List.length_replicate : (List.replicate 24 (0 : UInt8)).length = 24)
  have hpayload : view.payload =
      threeWords unavail.requestId unavail.firstUnavailable unavail.lastUnavailable := by
    rw [reads.payload, unavailableFrame, written]
    rfl
  rw [htype] at h
  dsimp only at h
  split at h
  · cases h
  · rw [hpayload, unavail.decode_threeWords] at h
    cases h
    rfl

/-! ## The replay thread -/

namespace ReplayRequestPayload

/-- A payload that asks for no interval does not decode. -/
theorem decode_ordered {src : List UInt8} {req : ReplayRequestPayload} (h : decode src = .ok req) :
    ¬ readU64 ((src.drop 8).take 8) > readU64 ((src.drop 16).take 8) := by
  intro unordered
  have long := (decode_ok h).1
  rw [decode, if_neg (Nat.not_lt.2 long)] at h
  simp (disch := omega) only [slice_eq, bind, Except.bind] at h
  rw [if_pos unordered] at h
  cases h

theorem eq_of_decode {self req : ReplayRequestPayload}
    (h : decode (threeWords self.requestId self.fromSequence self.toSequence) = .ok req) : req = self := by
  have ordered := decode_ordered h
  rw [threeWords_second, threeWords_third, readU64_writeU64, readU64_writeU64] at ordered
  rw [decode_threeWords (UInt64.not_lt.mp ordered)] at h
  exact (Except.ok.inj h).symm

end ReplayRequestPayload

/-- The packet of a request is read as that request, if it is one. -/
theorem request_of_sealed {req req' : ReplayRequestPayload}
    (small : ((requestFrame streamId req).sealed crc32c).length ≤ MAX_DATAGRAM)
    (h : requestOf crc32c codec ((requestFrame streamId req).sealed crc32c) = some req') : req' = req := by
  rw [requestOf] at h
  obtain ⟨view, received, h⟩ := Option.bind_eq_some_iff.mp h
  have reads := FrameCodec.reads_of_received received small
  have hpayload : view.payload = threeWords req.requestId req.fromSequence req.toSequence := reads.payload
  split at h
  · rw [hpayload] at h
    cases decoded : ReplayRequestPayload.decode
        (threeWords req.requestId req.fromSequence req.toSequence) with
    | error e =>
      rw [decoded] at h
      cases h
    | ok r =>
      rw [decoded] at h
      cases h
      exact ReplayRequestPayload.eq_of_decode decoded
  · cases h

/-- A packet that `send_replay_request` sends is the sealed request. -/
theorem eq_of_mem_sendReplayRequest {req : ReplayRequestPayload} {packet : List UInt8}
    (h : packet ∈ sendReplayRequest crc32c codec streamId req) :
    packet = (requestFrame streamId req).sealed crc32c := by
  have written := req.exec_encode (List.length_replicate : (List.replicate 24 (0 : UInt8)).length = 24)
  rw [sendReplayRequest, written] at h
  exact eq_of_mem_sendFrom1500 h

/-- A packet that answers a request is the response for a retained frame of the range, or a notice. -/
theorem mem_handleReplayRequest {ring : BoundedRingBuffer} {ownStreamId publisherId : UInt64}
    {req : ReplayRequestPayload} {packet : List UInt8}
    (h : packet ∈ handleReplayRequest crc32c codec ring ownStreamId publisherId req) :
    (∃ f, ring.get f.seq = some f ∧ req.fromSequence ≤ f.seq ∧ f.seq ≤ req.toSequence ∧
        packet = (responseFrame req.requestId f).sealed crc32c) ∨
      ∃ first last, packet =
        (unavailableFrame ownStreamId publisherId ⟨req.requestId, first, last⟩).sealed crc32c := by
  unfold handleReplayRequest at h
  cases range : ring.getRange req.fromSequence req.toSequence with
  | ok frames =>
    rw [range] at h
    obtain ⟨f, hf, hpacket⟩ := List.mem_flatMap.mp h
    have inRange := BoundedRingBuffer.getRange_ok range
    have hseq : f.seq.toNat ∈ frames.map fun f => f.seq.toNat := List.mem_map_of_mem hf
    rw [inRange.range, List.mem_range'_1] at hseq
    refine Or.inl ⟨f, inRange.found f hf, ?_, ?_, eq_of_mem_sendFrom1500 hpacket⟩
    · rw [UInt64.le_iff_toNat_le]
      omega
    · rw [UInt64.le_iff_toNat_le]
      omega
  | error e =>
    rw [range] at h
    exact Or.inr ⟨_, _, eq_of_mem_sendFrom1500 h⟩

end Rtdp
