import Rtdp.Core.Error
import Rtdp.Lib.BigEndian

/-!
# The fixed header (`core/src/protocol/header.rs`)

The 48-byte header of every frame: message type, lengths, identity and
checksum. `encode` writes eleven big-endian fields at fixed offsets; `decode`
reads them back and checks magic, version and message type.
-/

namespace Rtdp
open BigEndian

def MAGIC_RTDP : UInt16 := 0x5254
def RTDP_VERSION_1 : UInt8 := 0x01
def FIXED_HEADER_SIZE : Nat := 48
def DEFAULT_MAX_FRAME_SIZE : Nat := 1472

inductive MessageType where
  | data
  | heartbeat
  | replayRequest
  | replayResponse
  | replayUnavailable
  | snapshotRequest
  | snapshotResponse
  | error
  | experimental (v : UInt16)
  deriving DecidableEq, Repr

namespace MessageType

def fromU16 (val : UInt16) : Result MessageType :=
  if val = 0x0001 then .ok .data
  else if val = 0x0002 then .ok .heartbeat
  else if val = 0x0003 then .ok .replayRequest
  else if val = 0x0004 then .ok .replayResponse
  else if val = 0x0005 then .ok .replayUnavailable
  else if val = 0x0006 then .ok .snapshotRequest
  else if val = 0x0007 then .ok .snapshotResponse
  else if val = 0x0008 then .ok .error
  else if 0xFF00 ≤ val ∧ val ≤ 0xFFFF then .ok (.experimental val)
  else .error (.protocol .unsupportedMessageType s!"Unknown message type: 0x{hexUpper 4 val.toNat}")

def asU16 : MessageType → UInt16
  | data => 0x0001
  | heartbeat => 0x0002
  | replayRequest => 0x0003
  | replayResponse => 0x0004
  | replayUnavailable => 0x0005
  | snapshotRequest => 0x0006
  | snapshotResponse => 0x0007
  | error => 0x0008
  | experimental v => v

/-- A type that is read back is written as the same number. -/
theorem asU16_of_fromU16 {val : UInt16} {t : MessageType} (h : fromU16 val = .ok t) :
    t.asU16 = val := by
  unfold fromU16 at h
  split_ifs at h <;> cases h <;> first | rfl | simp_all [asU16]

theorem code_of_fromU16_error {val : UInt16} {e : RtdpError} (h : fromU16 val = .error e) :
    e.code = some .unsupportedMessageType := by
  unfold fromU16 at h
  split_ifs at h
  cases h
  rfl

end MessageType

/-- The flag byte; version 0.1 reserves every bit. -/
structure FrameFlags where
  bits : UInt8
  deriving DecidableEq, Repr

structure FixedHeader where
  magic : UInt16
  version : UInt8
  flags : FrameFlags
  messageType : MessageType
  headerLength : UInt16
  streamId : UInt64
  sequence : UInt64
  timestampNs : UInt64
  publisherId : UInt64
  payloadLength : UInt32
  checksum : UInt32
  deriving DecidableEq, Repr

namespace FixedHeader

def newData (streamId sequence timestampNs publisherId : UInt64) (payloadLength : UInt32)
    (headerLength : UInt16) : FixedHeader where
  magic := MAGIC_RTDP
  version := RTDP_VERSION_1
  flags := ⟨0⟩
  messageType := .data
  headerLength := headerLength
  streamId := streamId
  sequence := sequence
  timestampNs := timestampNs
  publisherId := publisherId
  payloadLength := payloadLength
  checksum := 0

open BufferM in
def encode (self : FixedHeader) : BufferM RtdpError Unit := do
  let dst ← get
  if dst.length < FIXED_HEADER_SIZE then
    throw (.err (.malformed "Destination buffer too short for fixed header"))
  store 0 2 (writeU16 self.magic)
  store 2 3 [self.version]
  store 3 4 [self.flags.bits]
  store 4 6 (writeU16 self.messageType.asU16)
  store 6 8 (writeU16 self.headerLength)
  store 8 16 (writeU64 self.streamId)
  store 16 24 (writeU64 self.sequence)
  store 24 32 (writeU64 self.timestampNs)
  store 32 40 (writeU64 self.publisherId)
  store 40 44 (writeU32 self.payloadLength)
  store 44 48 (writeU32 self.checksum)

def decode (src : List UInt8) : Call FixedHeader := do
  if src.length < FIXED_HEADER_SIZE then
    throw (.err (.malformed s!"Packet length {src.length} is less than 48-byte fixed header"))
  let magic := readU16 (← slice src 0 2)
  let version ← byteAt src 2
  let flags ← byteAt src 3
  let rawMsgType := readU16 (← slice src 4 6)
  let headerLength := readU16 (← slice src 6 8)
  let streamId := readU64 (← slice src 8 16)
  let sequence := readU64 (← slice src 16 24)
  let timestampNs := readU64 (← slice src 24 32)
  let publisherId := readU64 (← slice src 32 40)
  let payloadLength := readU32 (← slice src 40 44)
  let checksum := readU32 (← slice src 44 48)
  if magic ≠ MAGIC_RTDP then
    throw (.err (.malformed
      s!"Invalid magic 0x{hexUpper 4 magic.toNat}, expected 0x{hexUpper 4 MAGIC_RTDP.toNat}"))
  if version ≠ RTDP_VERSION_1 then
    throw (.err (.versionMismatch
      s!"Unsupported protocol version 0x{hexUpper 2 version.toNat}, expected 0x{hexUpper 2 RTDP_VERSION_1.toNat}"))
  let messageType ← (MessageType.fromU16 rawMsgType).mapError .err
  return { magic, version, flags := ⟨flags⟩, messageType, headerLength, streamId, sequence,
           timestampNs, publisherId, payloadLength, checksum }

end FixedHeader

/-! ## The header on the wire -/

/-- The eleven words of a header, whatever their values. -/
structure HeaderWords where
  magic : UInt16
  version : UInt8
  flags : UInt8
  rawMsgType : UInt16
  headerLength : UInt16
  streamId : UInt64
  sequence : UInt64
  timestampNs : UInt64
  publisherId : UInt64
  payloadLength : UInt32
  checksum : UInt32
  deriving DecidableEq, Repr

namespace HeaderWords

/-- The bytes in front of the checksum. -/
def fields (w : HeaderWords) : List UInt8 :=
  writeU16 w.magic ++ [w.version] ++ [w.flags] ++ writeU16 w.rawMsgType ++ writeU16 w.headerLength ++
    writeU64 w.streamId ++ writeU64 w.sequence ++ writeU64 w.timestampNs ++ writeU64 w.publisherId ++
    writeU32 w.payloadLength

def bytes (w : HeaderWords) : List UInt8 := w.fields ++ writeU32 w.checksum

/-- The words a byte list of at least 48 bytes starts with. -/
def ofBytes (src : List UInt8) : HeaderWords where
  magic := readU16 ((src.drop 0).take 2)
  version := src.getD 2 0
  flags := src.getD 3 0
  rawMsgType := readU16 ((src.drop 4).take 2)
  headerLength := readU16 ((src.drop 6).take 2)
  streamId := readU64 ((src.drop 8).take 8)
  sequence := readU64 ((src.drop 16).take 8)
  timestampNs := readU64 ((src.drop 24).take 8)
  publisherId := readU64 ((src.drop 32).take 8)
  payloadLength := readU32 ((src.drop 40).take 4)
  checksum := readU32 ((src.drop 44).take 4)

@[simp] theorem fields_length (w : HeaderWords) : w.fields.length = 44 := by
  simp [fields]

@[simp] theorem bytes_length (w : HeaderWords) : w.bytes.length = 48 := by
  simp [bytes]

theorem ofBytes_bytes (w : HeaderWords) (rest : List UInt8) : ofBytes (w.bytes ++ rest) = w := by
  have past (front : List UInt8) (n k : Nat) (h : front.length ≤ n) : (front.drop n).take k = [] := by
    simp [h]
  simp [ofBytes, bytes, fields, List.drop_append, List.take_append, List.getElem?_append, past]

theorem bytes_ofBytes {src : List UInt8} (h : 48 ≤ src.length) : (ofBytes src).bytes = src.take 48 := by
  have at2 : src.drop 2 = src.getD 2 0 :: src.drop 3 := by
    rw [List.drop_eq_getElem_cons (by omega)]
    simp [show 2 < src.length by omega]
  have at3 : src.drop 3 = src.getD 3 0 :: src.drop 4 := by
    rw [List.drop_eq_getElem_cons (by omega)]
    simp [show 3 < src.length by omega]
  have split : src.take 48 = src.take 2 ++ [src.getD 2 0] ++ [src.getD 3 0] ++ (src.drop 4).take 2 ++
      (src.drop 6).take 2 ++ (src.drop 8).take 8 ++ (src.drop 16).take 8 ++ (src.drop 24).take 8 ++
      (src.drop 32).take 8 ++ (src.drop 40).take 4 ++ (src.drop 44).take 4 := by
    rw [show 48 = 2 + (1 + (1 + (2 + (2 + (8 + (8 + (8 + (8 + (4 + 4))))))))) by rfl]
    simp only [List.take_add, List.drop_drop, at2, at3, List.append_assoc]
    simp
  rw [split]
  simp only [bytes, fields, ofBytes, List.drop_zero]
  simp (disch := simp; omega) only [writeU16_readU16, writeU32_readU32, writeU64_readU64]

/-- Overwriting the checksum field changes the checksum and nothing else. -/
theorem patch_checksum (w : HeaderWords) (rest : List UInt8) (c : UInt32) :
    patch (w.bytes ++ rest) 44 48 (writeU32 c) = { w with checksum := c }.bytes ++ rest := by
  have taken : (w.bytes ++ rest).take 44 = w.fields := by
    rw [bytes, List.append_assoc, ← w.fields_length, List.take_left]
  have dropped : (w.bytes ++ rest).drop 48 = rest := by
    rw [← w.bytes_length, List.drop_left]
  rw [patch, taken, dropped]
  rfl

/-- The header the words spell when they name message type `t`. -/
def header (w : HeaderWords) (t : MessageType) : FixedHeader where
  magic := w.magic
  version := w.version
  flags := ⟨w.flags⟩
  messageType := t
  headerLength := w.headerLength
  streamId := w.streamId
  sequence := w.sequence
  timestampNs := w.timestampNs
  publisherId := w.publisherId
  payloadLength := w.payloadLength
  checksum := w.checksum

end HeaderWords

namespace FixedHeader

/-- The words `encode` writes. -/
def words (self : FixedHeader) : HeaderWords where
  magic := self.magic
  version := self.version
  flags := self.flags.bits
  rawMsgType := self.messageType.asU16
  headerLength := self.headerLength
  streamId := self.streamId
  sequence := self.sequence
  timestampNs := self.timestampNs
  publisherId := self.publisherId
  payloadLength := self.payloadLength
  checksum := self.checksum

theorem words_header {w : HeaderWords} {t : MessageType} (h : MessageType.fromU16 w.rawMsgType = .ok t) :
    (w.header t).words = w := by
  have := MessageType.asU16_of_fromU16 h
  cases w
  simp_all [words, HeaderWords.header]

open BufferM in
theorem exec_encode (self : FixedHeader) {dst : List UInt8} (h : 48 ≤ dst.length) :
    exec self.encode dst = (.ok (), self.words.bytes ++ dst.drop 48) := by
  rw [encode, exec_bind_ok (exec_get dst), if_neg (by simp [FIXED_HEADER_SIZE]; omega)]
  change exec _ ([] ++ dst.drop 0) = _
  iterate 10 rw [exec_bind_ok (exec_store_next (by simp) (by simp) (by omega))]
  rw [exec_store_next (by simp) (by simp) (by omega)]
  rfl

/-- Past the magic and version checks, `decode` fails only on the message type. -/
theorem decode_eq {src : List UInt8} (h : 48 ≤ src.length)
    (magic : (HeaderWords.ofBytes src).magic = MAGIC_RTDP)
    (version : (HeaderWords.ofBytes src).version = RTDP_VERSION_1) :
    decode src = ((MessageType.fromU16 (HeaderWords.ofBytes src).rawMsgType).mapError .err).map
      (HeaderWords.ofBytes src).header := by
  have at2 : src.getD 2 0 = src[2] := by simp [show 2 < src.length by omega]
  have at3 : src.getD 3 0 = src[3] := by simp [show 3 < src.length by omega]
  simp only [HeaderWords.ofBytes, at2] at magic version
  rw [decode, if_neg (by simp [FIXED_HEADER_SIZE]; omega)]
  simp (disch := omega) only [slice_eq, byteAt_eq, bind, Except.bind, pure, Except.pure]
  rw [if_neg (not_not_intro magic), if_neg (not_not_intro version)]
  simp only [HeaderWords.ofBytes, at2, at3]
  cases MessageType.fromU16 (readU16 ((src.drop 4).take 2)) <;> rfl

end FixedHeader

end Rtdp
