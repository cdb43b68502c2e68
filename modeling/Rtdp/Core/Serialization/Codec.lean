import Rtdp.Core.Protocol.Frame
import Rtdp.Lib.Crc

/-!
# The frame codec (`core/src/serialization/codec.rs`)

`decode` checks a received packet in the numbered steps of the source, each a
function here, and returns a view of it; `encode` writes a frame into a
buffer and seals it with its checksum. The codec takes the checksum of a
third-party crate as a function of the bytes it is given; `crc32c` is that
function.
-/

namespace Rtdp
open BigEndian BufferM

/-- CRC-32C: the Castagnoli polynomial, reflected. -/
def castagnoli : Crc 32 where
  poly := 0x82F63B78#32
  init := 0xFFFFFFFF#32
  xorOut := 0xFFFFFFFF#32
  constant_term := by decide

/-- What the `crc32c` crate computes. -/
def crc32c (bytes : List UInt8) : UInt32 := ⟨castagnoli.checksum bytes⟩

/-- The check value of CRC-32C, over the digits 1 to 9. -/
example : crc32c [0x31, 0x32, 0x33, 0x34, 0x35, 0x36, 0x37, 0x38, 0x39] = 0xE3069283 := by
  decide +kernel

structure CodecConfig where
  maxFrameSize : Nat := DEFAULT_MAX_FRAME_SIZE
  validateChecksum : Bool := true
  deriving DecidableEq, Repr

structure FrameCodec where
  config : CodecConfig
  deriving DecidableEq, Repr

namespace FrameCodec

def new (config : CodecConfig) : FrameCodec := ⟨config⟩

def withDefaultConfig : FrameCodec := new {}

/-! ## Decoding -/

/-- Steps 1 and 2: lengths of the packet, magic and version. -/
def checkPrefix (self : FrameCodec) (packet : List UInt8) : Call Unit := do
  if packet.length < FIXED_HEADER_SIZE then
    throw (.err (.malformed s!"Frame length {packet.length} is less than minimum 48-byte header"))
  if packet.length > self.config.maxFrameSize then
    throw (.err (.frameTooLarge packet.length self.config.maxFrameSize))
  let magic := readU16 (← slice packet 0 2)
  if magic ≠ MAGIC_RTDP then
    throw (.err (.malformed
      s!"Invalid magic 0x{hexUpper 4 magic.toNat}, expected 0x{hexUpper 4 MAGIC_RTDP.toNat}"))
  let version ← byteAt packet 2
  if version ≠ RTDP_VERSION_1 then
    throw (.err (.versionMismatch
      s!"Unsupported protocol version 0x{hexUpper 2 version.toNat}, expected 0x{hexUpper 2 RTDP_VERSION_1.toNat}"))

/-- Step 3: `header_length`. -/
def checkHeaderLength (packet : List UInt8) : Call Nat := do
  let headerLength := (readU16 (← slice packet 6 8)).toNat
  if headerLength < FIXED_HEADER_SIZE then
    throw (.err (.malformed s!"header_length {headerLength} is below minimum 48"))
  if headerLength % 4 ≠ 0 then
    throw (.err (.malformed s!"header_length {headerLength} is not 4-byte aligned"))
  if headerLength > packet.length then
    throw (.err (.malformed
      s!"header_length {headerLength} exceeds total packet length {packet.length}"))
  return headerLength

/-- Step 4: `payload_length` against the received frame size. -/
def checkPayloadLength (packet : List UInt8) (headerLength : Nat) : Call Nat := do
  let payloadLength := (readU32 (← slice packet 40 44)).toNat
  if headerLength + payloadLength ≠ packet.length then
    throw (.err (.malformed
      s!"Frame size mismatch: header ({headerLength}) + payload ({payloadLength}) != received packet ({packet.length})"))
  return payloadLength

/-- The loop of step 5 over the TLV records that are left. -/
def walkExtensions (iter : ExtensionIterator) : Call Unit :=
  match h : iter.next with
  | .error fault => .error fault
  | .ok (none, _) => .ok ()
  | .ok (some (.error e), _) => .error (.err e)
  | .ok (some (.ok ext), iter') =>
    if ext.isCritical && !isKnownExtension ext.extType then
      .error (.err (.unsupportedExtension ext.extType))
    else walkExtensions iter'
termination_by iter.data.length - iter.offset
decreasing_by
  obtain ⟨inside, hdata, hforward⟩ := ExtensionIterator.next_progress h
  rw [hdata]
  omega

/-- Step 5: TLV alignment and extension lengths. -/
def checkExtensions (packet : List UInt8) (headerLength : Nat) : Call Unit := do
  if headerLength > FIXED_HEADER_SIZE then
    let extSlice ← slice packet FIXED_HEADER_SIZE headerLength
    walkExtensions (.new extSlice)

/-- Step 6: the checksum, over the packet with the checksum field zeroed. The
field is restored before the comparison. -/
def checkChecksum (crc32c : List UInt8 → UInt32) (self : FrameCodec) : BufferM RtdpError Unit := do
  let wireChecksum := readU32 (← slice (ε := RtdpError) (← get) 44 48)
  if self.config.validateChecksum then
    store 44 48 (writeU32 0)
    let calculatedChecksum := crc32c (← get)
    store 44 48 (writeU32 wireChecksum)
    if calculatedChecksum ≠ wireChecksum then
      throw (.err (.checksumFailed wireChecksum calculatedChecksum))

/-- Message-specific payload structural invariants. -/
def checkPayload (packet : List UInt8) (messageType : MessageType) (headerLength payloadLength : Nat) :
    Call Unit := do
  match messageType with
  | .heartbeat =>
    if payloadLength ≠ 0 then
      throw (.err (.malformed s!"HEARTBEAT must have 0-length payload, got {payloadLength}"))
  | .replayRequest =>
    if payloadLength ≠ 24 then
      throw (.err (.malformed
        s!"REPLAY_REQUEST payload must be exactly 24 bytes, got {payloadLength}"))
    let fromSeq := readU64 (← slice packet (headerLength + 8) (headerLength + 16))
    let toSeq := readU64 (← slice packet (headerLength + 16) (headerLength + 24))
    if fromSeq > toSeq then
      throw (.err (.protocol .replayRangeInvalid
        s!"REPLAY_REQUEST from_seq ({fromSeq}) > to_seq ({toSeq})"))
  | .replayUnavailable =>
    if payloadLength ≠ 24 then
      throw (.err (.malformed
        s!"REPLAY_UNAVAILABLE payload must be exactly 24 bytes, got {payloadLength}"))
  | .replayResponse =>
    if payloadLength < 8 then
      throw (.err (.malformed
        s!"REPLAY_RESPONSE payload must be at least 8 bytes (request_id), got {payloadLength}"))
  | _ => return

/-- Strict parser of a received packet. -/
def decode (crc32c : List UInt8 → UInt32) (self : FrameCodec) : BufferM RtdpError FrameView := do
  let packet ← get
  self.checkPrefix packet
  let headerLength ← checkHeaderLength packet
  let payloadLength ← checkPayloadLength packet headerLength
  checkExtensions packet headerLength
  self.checkChecksum crc32c
  let packet ← get
  let header ← FixedHeader.decode (← slice (ε := RtdpError) packet 0 FIXED_HEADER_SIZE)
  checkPayload packet header.messageType headerLength payloadLength
  let extensionBytes ← slice (ε := RtdpError) packet FIXED_HEADER_SIZE headerLength
  let payload ← slice (ε := RtdpError) packet headerLength packet.length
  return { header, extensionBytes, payload }

/-! ## Encoding -/

/-- Write a frame into the destination buffer, lengths and checksum recomputed. -/
def encode (crc32c : List UInt8 → UInt32) (self : FrameCodec) (frame : OwnedFrame) :
    BufferM RtdpError Nat := do
  let extLen := frame.extensionBytes.length
  let totalHl := FIXED_HEADER_SIZE + extLen
  if totalHl % 4 ≠ 0 then
    throw (.err (.malformed "Extensions length makes header unaligned to 4 bytes"))
  let payloadLen := frame.payload.length
  let totalFrameLen := totalHl + payloadLen
  if totalFrameLen > self.config.maxFrameSize then
    throw (.err (.frameTooLarge totalFrameLen self.config.maxFrameSize))
  let dst ← get
  if dst.length < totalFrameLen then
    throw (.err (.malformed s!"Destination buffer size {dst.length} < required {totalFrameLen}"))
  let header :=
    { frame.header with
      headerLength := UInt16.ofNat totalHl
      payloadLength := UInt32.ofNat payloadLen
      checksum := 0 }
  onPrefix FIXED_HEADER_SIZE header.encode
  if extLen > 0 then
    store FIXED_HEADER_SIZE totalHl frame.extensionBytes
  store totalHl totalFrameLen frame.payload
  let calculatedCrc := crc32c (← slice (ε := RtdpError) (← get) 0 totalFrameLen)
  store 44 48 (writeU32 calculatedCrc)
  return totalFrameLen

end FrameCodec

end Rtdp
