import Rtdp.Core.Recovery.Payloads
import Rtdp.Transport.Publisher
import Rtdp.Transport.Subscriber

/-!
# What the two ends read out of a packet

Both threads receive into a buffer of `max_frame_size` bytes, which cuts longer
packets off, and skip what does not decode. The listener of the publisher
answers replay requests; the worker of the subscriber turns the frames of its
stream into events.
-/

namespace Rtdp
open BigEndian BufferM

/-- `recv_from`, and `if let Ok(view) = codec.decode(..)`. -/
def FrameCodec.receive (crc32c : List UInt8 → UInt32) (codec : FrameCodec) (packet : List UInt8) :
    Option FrameView :=
  (exec (codec.decode crc32c) (packet.take codec.config.maxFrameSize)).1.toOption

/-- The request the listener thread answers. -/
def requestOf (crc32c : List UInt8 → UInt32) (codec : FrameCodec) (packet : List UInt8) :
    Option ReplayRequestPayload := do
  let view ← codec.receive crc32c packet
  if view.header.messageType = .replayRequest then
    (ReplayRequestPayload.decode view.payload).toOption
  else none

/-- The frame the worker rebuilds from a REPLAY_RESPONSE. -/
def recoveredFrame (view : FrameView) : OwnedFrame where
  header := { view.header with messageType := .data }
  extensionBytes := view.extensionBytes
  payload := view.payload.drop 8

/-- The event a packet is to the worker of a subscriber of `streamId`. -/
def eventOf (crc32c : List UInt8 → UInt32) (codec : FrameCodec) (streamId : UInt64) (now : Instant)
    (packet : List UInt8) : Option Event := do
  let view ← codec.receive crc32c packet
  if view.header.streamId ≠ streamId ∧ view.header.messageType ≠ .replayUnavailable then none
  else
    match view.header.messageType with
    | .data => some (.data now view.toOwned)
    | .replayResponse =>
      if view.payload.length ≥ 8 then
        some (.replayResponse (readU64 (view.payload.take 8)) (recoveredFrame view))
      else none
    | .replayUnavailable =>
      match ReplayUnavailablePayload.decode view.payload with
      | .ok unavail => some (.replayUnavailable unavail)
      | .error _ => none
    | _ => none

/-- The packets `send_replay_request` sends to its target. -/
def sendReplayRequest (crc32c : List UInt8 → UInt32) (codec : FrameCodec) (streamId : UInt64)
    (req : ReplayRequestPayload) : List (List UInt8) :=
  sendFrom1500 crc32c codec
    (controlFrame .replayRequest streamId 0 (exec req.encode (List.replicate 24 0)).2)

/-! ## The arms -/

section Arms

variable {crc32c : List UInt8 → UInt32} {codec : FrameCodec} {streamId : UInt64}
  {packet : List UInt8} {view : FrameView}

theorem requestOf_eq (received : codec.receive crc32c packet = some view)
    (request : view.header.messageType = .replayRequest) :
    requestOf crc32c codec packet = (ReplayRequestPayload.decode view.payload).toOption := by
  rw [requestOf, received]
  exact if_pos request

theorem eventOf_data (now : Instant) (received : codec.receive crc32c packet = some view)
    (data : view.header.messageType = .data) (own : view.header.streamId = streamId) :
    eventOf crc32c codec streamId now packet = some (.data now view.toOwned) := by
  simp [eventOf, received, data, own]

theorem eventOf_replayResponse (now : Instant) (received : codec.receive crc32c packet = some view)
    (response : view.header.messageType = .replayResponse) (own : view.header.streamId = streamId)
    (long : 8 ≤ view.payload.length) :
    eventOf crc32c codec streamId now packet =
      some (.replayResponse (readU64 (view.payload.take 8)) (recoveredFrame view)) := by
  simp [eventOf, received, response, own, long]

/-- Notices are not filtered by stream. -/
theorem eventOf_replayUnavailable (now : Instant) {unavail : ReplayUnavailablePayload}
    (received : codec.receive crc32c packet = some view)
    (notice : view.header.messageType = .replayUnavailable)
    (decoded : ReplayUnavailablePayload.decode view.payload = .ok unavail) :
    eventOf crc32c codec streamId now packet = some (.replayUnavailable unavail) := by
  simp [eventOf, received, notice, decoded]

/-- Only a DATA packet is a DATA event. -/
theorem view_of_data {now now' : Instant} {g : OwnedFrame}
    (h : eventOf crc32c codec streamId now packet = some (.data now' g)) :
    ∃ view, codec.receive crc32c packet = some view ∧ view.header.messageType = .data ∧
      g = view.toOwned := by
  rw [eventOf] at h
  obtain ⟨view, received, h⟩ := Option.bind_eq_some_iff.mp h
  refine ⟨view, received, ?_⟩
  split at h
  · cases h
  split at h
  · rename_i data
    cases h
    exact ⟨data, rfl⟩
  · split at h <;> cases h
  · split at h <;> cases h
  · cases h

/-- Only a REPLAY_RESPONSE packet is a replayed frame. -/
theorem view_of_response {now : Instant} {id : UInt64} {g : OwnedFrame}
    (h : eventOf crc32c codec streamId now packet = some (.replayResponse id g)) :
    ∃ view, codec.receive crc32c packet = some view ∧ 8 ≤ view.payload.length ∧
      g = recoveredFrame view := by
  rw [eventOf] at h
  obtain ⟨view, received, h⟩ := Option.bind_eq_some_iff.mp h
  refine ⟨view, received, ?_⟩
  split at h
  · cases h
  split at h
  · cases h
  · split at h
    · rename_i long
      cases h
      exact ⟨long, rfl⟩
    · cases h
  · split at h <;> cases h
  · cases h

end Arms

/-! ## Receiving a sealed frame -/

/-- The header of a sealed frame: lengths and checksum are recomputed. -/
def OwnedFrame.sealedHeader (crc32c : List UInt8 → UInt32) (frame : OwnedFrame) : FixedHeader :=
  { frame.header with
    headerLength := UInt16.ofNat (48 + frame.extensionBytes.length)
    payloadLength := UInt32.ofNat frame.payload.length
    checksum := crc32c (frame.wireBytes 0) }

/-- The view of a sealed frame. -/
def OwnedFrame.sealedView (crc32c : List UInt8 → UInt32) (frame : OwnedFrame) : FrameView where
  header := frame.sealedHeader crc32c
  extensionBytes := frame.extensionBytes
  payload := frame.payload

namespace FrameCodec

variable {crc32c : List UInt8 → UInt32} {codec : FrameCodec} {room : Nat} {frame : OwnedFrame}

/-- A frame the size of a packet arrives whole. -/
theorem receive_eq {packet : List UInt8} (h : packet.length ≤ codec.config.maxFrameSize) :
    codec.receive crc32c packet = (exec (codec.decode crc32c) packet).1.toOption := by
  rw [receive, List.take_of_length_le h]

/-- A frame without extensions that was sent is received. -/
theorem receive_sealed (crc32c : List UInt8 → UInt32) (sendable : codec.Sendable room frame)
    (plain : frame.extensionBytes = []) (magic : frame.header.magic = MAGIC_RTDP)
    (version : frame.header.version = RTDP_VERSION_1)
    (message_type : MessageType.fromU16 frame.header.messageType.asU16 = .ok frame.header.messageType)
    (payload_fits : frame.payload.length < 2 ^ 32)
    (schema : frame.header.messageType.Schema frame.payload) :
    codec.receive crc32c (frame.sealed crc32c) = some (frame.sealedView crc32c) := by
  have grammar : FrameOf crc32c codec.config (frame.sealed crc32c)
      (frame.wireWords (crc32c (frame.wireBytes 0))) [] frame.payload frame.header.messageType := by
    apply frameOf_sealed crc32c sendable magic version message_type (by simp)
    · rw [plain, PrefixCode.stream_nil]
    · simp [plain]
    · exact payload_fits
    · exact schema
  rw [receive_eq, exec_decode grammar]
  · rw [OwnedFrame.sealedView, plain, PrefixCode.stream_nil]
    rfl
  · rw [OwnedFrame.sealed, OwnedFrame.wireBytes_length]
    exact sendable.fits

/-- What is received is a frame of the grammar, cut off at the buffer's size. -/
theorem frameOf_received {packet : List UInt8} {view : FrameView}
    (received : codec.receive crc32c packet = some view) :
    ∃ w tlvs messageType, FrameOf crc32c codec.config (packet.take codec.config.maxFrameSize) w tlvs
        view.payload messageType ∧
      view.header = w.header messageType ∧ view.extensionBytes = tlvCode.stream tlvs := by
  rw [receive] at received
  cases hexec : exec (codec.decode crc32c) (packet.take codec.config.maxFrameSize) with
  | mk result out =>
    rw [hexec] at received
    cases result with
    | error e => cases received
    | ok view' =>
      obtain rfl : view' = view := Option.some.inj received
      exact frameOf_decoded hexec

/-- The length field of what is received counts the payload. -/
theorem payloadLength_of_received {packet : List UInt8} {view : FrameView}
    (received : codec.receive crc32c packet = some view) :
    view.header.payloadLength.toNat = view.payload.length := by
  obtain ⟨w, tlvs, t, grammar, hheader, -⟩ := frameOf_received received
  rw [hheader]
  exact grammar.payload_length

/-- A frame whose length fields do not wrap is received whole: what is left of it when it is cut off
disagrees with them. -/
theorem whole_of_received {view : FrameView} (received : codec.receive crc32c (frame.sealed crc32c) = some view)
    (extensions_fit : frame.extensionBytes.length ≤ 65487) (payload_fits : frame.payload.length < 2 ^ 32) :
    frame.wireLength ≤ codec.config.maxFrameSize := by
  have hlen : (frame.sealed crc32c).length = frame.wireLength := frame.wireBytes_length _
  obtain ⟨w, tlvs, t, grammar, -, -⟩ := frameOf_received received
  -- the header stands in front of the cut
  have hpacket : frame.sealed crc32c =
      w.bytes ++ (tlvCode.stream tlvs ++ view.payload ++
        (frame.sealed crc32c).drop codec.config.maxFrameSize) := by
    nth_rewrite 1 [← List.take_append_drop codec.config.maxFrameSize (frame.sealed crc32c)]
    rw [grammar.split]
    simp only [List.append_assoc]
  have hwords : w = frame.wireWords (crc32c (frame.wireBytes 0)) := by
    rw [← OwnedFrame.ofBytes_sealed, hpacket, HeaderWords.ofBytes_bytes]
  have hheader := grammar.header_length
  have hpayload := grammar.payload_length
  have hcut := grammar.packet_length
  have hext : (UInt16.ofNat (48 + frame.extensionBytes.length)).toNat = 48 + frame.extensionBytes.length :=
    UInt16.toNat_ofNat_of_lt' (by show _ < 65536; omega)
  have hcount : (UInt32.ofNat frame.payload.length).toNat = frame.payload.length :=
    UInt32.toNat_ofNat_of_lt' payload_fits
  rw [hwords] at hheader hpayload
  simp only [OwnedFrame.wireWords] at hheader hpayload
  rw [List.length_take, hlen] at hcut
  unfold OwnedFrame.wireLength at hcut ⊢
  omega

/-- What is received of a sealed frame that was not cut off. -/
theorem view_of_sealed {view : FrameView} (received : codec.receive crc32c (frame.sealed crc32c) = some view)
    (whole : frame.wireLength ≤ codec.config.maxFrameSize) :
    view.header = { frame.sealedHeader crc32c with messageType := view.header.messageType } ∧
      view.extensionBytes = frame.extensionBytes ∧ view.payload = frame.payload ∧
      view.header.magic = MAGIC_RTDP ∧ view.header.version = RTDP_VERSION_1 := by
  have hlen : (frame.sealed crc32c).length = frame.wireLength := frame.wireBytes_length _
  obtain ⟨w, tlvs, t, grammar, hheader, hext⟩ := frameOf_received received
  rw [List.take_of_length_le (by omega)] at grammar
  obtain ⟨rfl, hexts, hpayload⟩ := parts_of_sealed grammar
  rw [hheader]
  exact ⟨rfl, hext.trans hexts.symm, hpayload.symm, grammar.magic, grammar.version⟩

end FrameCodec

/-- A request that is read has come whole, and asks for an interval. -/
theorem request_read {crc32c : List UInt8 → UInt32} {codec : FrameCodec} {packet : List UInt8}
    {req : ReplayRequestPayload} (h : requestOf crc32c codec packet = some req) :
    72 ≤ codec.config.maxFrameSize ∧ req.fromSequence ≤ req.toSequence := by
  rw [requestOf] at h
  obtain ⟨view, received, h⟩ := Option.bind_eq_some_iff.mp h
  split at h
  · cases decoded : ReplayRequestPayload.decode view.payload with
    | error e =>
      rw [decoded] at h
      cases h
    | ok req' =>
      rw [decoded] at h
      cases h
      obtain ⟨long, ordered⟩ := ReplayRequestPayload.decode_ok decoded
      obtain ⟨w, tlvs, t, grammar, -⟩ := FrameCodec.frameOf_received received
      have size := congrArg List.length grammar.split
      have fits := grammar.frame_size
      rw [List.length_append, List.length_append, w.bytes_length] at size
      exact ⟨by omega, ordered⟩
  · cases h

/-- What a publisher sends is a DATA event to the subscribers of its stream that have room for it. -/
theorem eventOf_published (crc32c : List UInt8 → UInt32) {codec : FrameCodec} (now : Instant) (pub : UdpPublisher)
    (nowNs : UInt64) {payload : List UInt8} (room : 48 + payload.length ≤ codec.config.maxFrameSize)
    (payload_fits : payload.length < 2 ^ 32) :
    eventOf crc32c codec pub.config.streamId now ((pub.nextFrame nowNs payload).sealed crc32c) =
      some (.data now ((pub.nextFrame nowNs payload).sealedView crc32c).toOwned) := by
  have hsendable : codec.Sendable codec.config.maxFrameSize (pub.nextFrame nowNs payload) :=
    FrameCodec.sendable_iff.mpr ⟨by simp [UdpPublisher.nextFrame, OwnedFrame.newData], room, room⟩
  refine eventOf_data now ?_ rfl rfl
  exact FrameCodec.receive_sealed crc32c hsendable rfl rfl rfl rfl payload_fits trivial

end Rtdp
