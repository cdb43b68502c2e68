import Rtdp.Core.Buffers.Ring
import Rtdp.Core.Recovery.Engine
import Rtdp.Transport.Packets

/-!
# The publisher (`transports/udp/src/publisher.rs`)

A publisher numbers its payloads, keeps the frames in the replay ring and sends
them; its listener thread answers replay requests from the ring. Sends on the
socket are taken to succeed: `sent` lists the packets in order. The clock
reading of `publish` is an argument. Counters wrap, as in a release build.
-/

namespace Rtdp
open BigEndian BufferM

structure UdpPublisherConfig where
  streamId : UInt64
  publisherId : UInt64
  ringBufferCapacity : UInt64
  maxFrameSize : Nat
  deriving DecidableEq, Repr

def UdpPublisherConfig.default : UdpPublisherConfig where
  streamId := 1
  publisherId := 100
  ringBufferCapacity := 10000
  maxFrameSize := 1472

/-- The codec of the publisher and of its listener thread. -/
def UdpPublisherConfig.codec (self : UdpPublisherConfig) : FrameCodec :=
  FrameCodec.new { maxFrameSize := self.maxFrameSize, validateChecksum := true }

structure UdpPublisher where
  config : UdpPublisherConfig
  ringBuffer : BoundedRingBuffer
  sequenceCounter : UInt64
  /-- Packets passed to `send_to`, oldest first. -/
  sent : List (List UInt8)

namespace UdpPublisher

/-- The ring buffer asserts that its capacity is positive. -/
def new (config : UdpPublisherConfig) (pos : 0 < config.ringBufferCapacity) : UdpPublisher where
  config := config
  ringBuffer := BoundedRingBuffer.new config.ringBufferCapacity pos
  sequenceCounter := 1
  sent := []

/-- A publisher of the default configuration. -/
def default : UdpPublisher := new UdpPublisherConfig.default (by decide)

/-- The frame the next call of `publish` builds. -/
def nextFrame (self : UdpPublisher) (nowNs : UInt64) (payload : List UInt8) : OwnedFrame :=
  OwnedFrame.newData self.config.streamId self.sequenceCounter nowNs self.config.publisherId payload

/-- Publish application payload to the target address. -/
def publish (crc32c : List UInt8 → UInt32) (self : UdpPublisher) (nowNs : UInt64) (payload : List UInt8) :
    Call UInt64 × UdpPublisher :=
  let seq := self.sequenceCounter
  let frame := self.nextFrame nowNs payload
  let self := { self with sequenceCounter := self.sequenceCounter + 1 }
  -- stored for replay before it is encoded
  let self := { self with ringBuffer := self.ringBuffer.push frame }
  match self.config.codec.encodePacket crc32c self.config.maxFrameSize frame with
  | .error e => (.error e, self)
  | .ok packet => (.ok seq, { self with sent := self.sent ++ [packet] })

/-- Publish a raw frame. -/
def publishFrame (crc32c : List UInt8 → UInt32) (self : UdpPublisher) (frame : OwnedFrame)
    (storeInRing : Bool) : Call Nat × UdpPublisher :=
  let self := if storeInRing then { self with ringBuffer := self.ringBuffer.push frame } else self
  match self.config.codec.encodePacket crc32c self.config.maxFrameSize frame with
  | .error e => (.error e, self)
  | .ok packet => (.ok packet.length, { self with sent := self.sent ++ [packet] })

/-- Store a frame without transmitting it. -/
def storeInRingOnly (self : UdpPublisher) (frame : OwnedFrame) : UdpPublisher :=
  { self with ringBuffer := self.ringBuffer.push frame }

def restartWithNewPublisherId (self : UdpPublisher) (newPublisherId : UInt64) : UdpPublisher :=
  { self with
    config := { self.config with publisherId := newPublisherId }
    sequenceCounter := 1
    ringBuffer := self.ringBuffer.clear }

end UdpPublisher

/-! ## Answering replay requests -/

/-- The REPLAY_RESPONSE for a retained frame: its payload behind the request id. -/
def responseFrame (requestId : UInt64) (original : OwnedFrame) : OwnedFrame :=
  let payload := writeU64 requestId ++ original.payload
  { header :=
      { magic := MAGIC_RTDP
        version := RTDP_VERSION_1
        flags := ⟨0⟩
        messageType := .replayResponse
        headerLength := UInt16.ofNat FIXED_HEADER_SIZE
        streamId := original.header.streamId
        sequence := original.header.sequence
        timestampNs := original.header.timestampNs
        publisherId := original.header.publisherId
        payloadLength := UInt32.ofNat payload.length
        checksum := 0 }
    extensionBytes := []
    payload := payload }

/-- A control frame of stream and publisher with a 24-byte payload. -/
def controlFrame (messageType : MessageType) (streamId publisherId : UInt64) (payload : List UInt8) :
    OwnedFrame where
  header :=
    { magic := MAGIC_RTDP
      version := RTDP_VERSION_1
      flags := ⟨0⟩
      messageType := messageType
      headerLength := UInt16.ofNat FIXED_HEADER_SIZE
      streamId := streamId
      sequence := 0
      timestampNs := 0
      publisherId := publisherId
      payloadLength := 24
      checksum := 0 }
  extensionBytes := []
  payload := payload

/-- The REPLAY_UNAVAILABLE for a range. -/
def unavailableFrame (streamId publisherId : UInt64) (unavail : ReplayUnavailablePayload) : OwnedFrame :=
  controlFrame .replayUnavailable streamId publisherId (exec unavail.encode (List.replicate 24 0)).2

/-- `if let Ok(len) = codec.encode(&frame, &mut send_buf)` on a buffer of 1500 bytes: the packets sent. -/
def sendFrom1500 (crc32c : List UInt8 → UInt32) (codec : FrameCodec) (frame : OwnedFrame) :
    List (List UInt8) :=
  match codec.encodePacket crc32c 1500 frame with
  | .ok packet => [packet]
  | .error _ => []

/-- The packets `handle_replay_request` sends to the peer. -/
def handleReplayRequest (crc32c : List UInt8 → UInt32) (codec : FrameCodec) (ring : BoundedRingBuffer)
    (streamId publisherId : UInt64) (req : ReplayRequestPayload) : List (List UInt8) :=
  match ring.getRange req.fromSequence req.toSequence with
  | .ok frames => frames.flatMap fun f => sendFrom1500 crc32c codec (responseFrame req.requestId f)
  | .error (_, firstUnavail, lastUnavail) =>
    sendFrom1500 crc32c codec
      (unavailableFrame streamId publisherId ⟨req.requestId, firstUnavail, lastUnavail⟩)

/-! ## What a call of `publish` does -/

namespace UdpPublisher

variable {crc32c : List UInt8 → UInt32} {pub : UdpPublisher} {nowNs : UInt64} {payload : List UInt8}

/-- The payload fits into a frame. -/
def Fits (pub : UdpPublisher) (payload : List UInt8) : Prop :=
  48 + payload.length ≤ pub.config.maxFrameSize

instance : Decidable (pub.Fits payload) := inferInstanceAs (Decidable (_ ≤ _))

theorem sendable_nextFrame :
    pub.config.codec.Sendable pub.config.maxFrameSize (pub.nextFrame nowNs payload) ↔
      pub.Fits payload := by
  rw [FrameCodec.sendable_iff]
  simp [Fits, OwnedFrame.wireLength, nextFrame, OwnedFrame.newData, UdpPublisherConfig.codec, FrameCodec.new]

/-- A payload that fits is numbered, stored and sent. -/
theorem publish_ok (crc32c : List UInt8 → UInt32) (nowNs : UInt64) (fits : pub.Fits payload) :
    pub.publish crc32c nowNs payload =
      (.ok pub.sequenceCounter,
        { pub with
          sequenceCounter := pub.sequenceCounter + 1
          ringBuffer := pub.ringBuffer.push (pub.nextFrame nowNs payload)
          sent := pub.sent ++ [(pub.nextFrame nowNs payload).sealed crc32c] }) := by
  unfold publish
  dsimp only
  rw [FrameCodec.encodePacket_ok crc32c (sendable_nextFrame.mpr fits)]

/-- One that does not is numbered and stored. -/
theorem publish_refused (crc32c : List UInt8 → UInt32) (nowNs : UInt64) (large : ¬ pub.Fits payload) :
    ∃ e, pub.publish crc32c nowNs payload =
      (.error (.err e),
        { pub with
          sequenceCounter := pub.sequenceCounter + 1
          ringBuffer := pub.ringBuffer.push (pub.nextFrame nowNs payload) }) := by
  obtain ⟨e, he⟩ := FrameCodec.encodePacket_refused crc32c (mt sendable_nextFrame.mp large)
  refine ⟨e, ?_⟩
  unfold publish
  dsimp only
  rw [he]

/-- What `publish_frame` has done when it stores the frame and returns. -/
theorem publishFrame_stored {frame : OwnedFrame} {n : Nat} {after : UdpPublisher}
    (published : pub.publishFrame crc32c frame true = (.ok n, after)) :
    pub.config.codec.Sendable pub.config.maxFrameSize frame ∧
      after =
        { pub with
          ringBuffer := pub.ringBuffer.push frame
          sent := pub.sent ++ [frame.sealed crc32c] } := by
  unfold publishFrame at published
  rw [if_pos rfl] at published
  dsimp only at published
  by_cases sendable : pub.config.codec.Sendable pub.config.maxFrameSize frame
  · rw [FrameCodec.encodePacket_ok crc32c sendable] at published
    cases published
    exact ⟨sendable, rfl⟩
  · obtain ⟨e, he⟩ := FrameCodec.encodePacket_refused crc32c sendable
    rw [he] at published
    cases published

end UdpPublisher

end Rtdp
