import Rtdp.Core.Serialization.Codec
import Rtdp.Lib.Precedence

/-!
# What the decoder accepts

A frame is a 48-byte header, TLV records up to `header_length`, and the
payload. `Grammar` says so of a whole packet; `rules` says the same as ten
rules in a fixed order. The decoder's verdict on a packet is its verdict on the
rules: it accepts exactly the grammar, and reports the first violated rule.
-/

namespace Rtdp
open BigEndian BufferM RuleBook

/-! ## The parts of a packet -/

/-- The `header_length` field of a packet. -/
def headerLengthOf (packet : List UInt8) : Nat := (HeaderWords.ofBytes packet).headerLength.toNat

/-- The bytes between the fixed header and `header_length`. -/
def extensionArea (packet : List UInt8) : List UInt8 :=
  (packet.drop 48).take (headerLengthOf packet - 48)

/-- The bytes from `header_length` on. -/
def payloadArea (packet : List UInt8) : List UInt8 :=
  packet.drop (headerLengthOf packet)

/-- The packet with bytes 44..47 zeroed. -/
def checksumZeroed (packet : List UInt8) : List UInt8 :=
  patch packet 44 48 [0, 0, 0, 0]

/-- A record that a receiver may skip. -/
def Tlv.Skippable (t : Tlv) : Prop := t.isCritical = false

instance (t : Tlv) : Decidable t.Skippable := inferInstanceAs (Decidable (t.isCritical = false))

/-- The payload schema of a message type. -/
def MessageType.Schema (payload : List UInt8) : MessageType → Prop
  | heartbeat => payload.length = 0
  | replayRequest =>
    payload.length = 24 ∧ readU64 ((payload.drop 8).take 8) ≤ readU64 ((payload.drop 16).take 8)
  | replayUnavailable => payload.length = 24
  | replayResponse => 8 ≤ payload.length
  | _ => True

/-! ## The grammar -/

/-- `packet` is the frame of header words `w`, records `tlvs` and `payload`. -/
structure FrameOf (crc32c : List UInt8 → UInt32) (config : CodecConfig) (packet : List UInt8)
    (w : HeaderWords) (tlvs : List Tlv) (payload : List UInt8) (messageType : MessageType) : Prop where
  split : packet = w.bytes ++ tlvCode.stream tlvs ++ payload
  length : 48 ≤ packet.length
  frame_size : packet.length ≤ config.maxFrameSize
  magic : w.magic = MAGIC_RTDP
  version : w.version = RTDP_VERSION_1
  header_length : w.headerLength.toNat = 48 + (tlvCode.stream tlvs).length
  payload_length : w.payloadLength.toNat = payload.length
  skippable : ∀ t ∈ tlvs, t.Skippable
  checksum : config.validateChecksum = true → crc32c (checksumZeroed packet) = w.checksum
  message_type : MessageType.fromU16 w.rawMsgType = .ok messageType
  schema : messageType.Schema payload

def Grammar (crc32c : List UInt8 → UInt32) (config : CodecConfig) (packet : List UInt8) : Prop :=
  ∃ w tlvs payload messageType, FrameOf crc32c config packet w tlvs payload messageType

/-! ## The rules in the order they are checked -/

inductive Rule where
  | length
  | frameSize
  | magic
  | version
  | headerLength
  | payloadLength
  | extensions
  | checksum
  | messageType
  | schema
  deriving DecidableEq, Repr

def precedence : List Rule :=
  [.length, .frameSize, .magic, .version, .headerLength, .payloadLength, .extensions, .checksum,
    .messageType, .schema]

def Rule.Holds (crc32c : List UInt8 → UInt32) (config : CodecConfig) (packet : List UInt8) :
    Rule → Prop
  | length => 48 ≤ packet.length
  | frameSize => packet.length ≤ config.maxFrameSize
  | magic => (HeaderWords.ofBytes packet).magic = MAGIC_RTDP
  | version => (HeaderWords.ofBytes packet).version = RTDP_VERSION_1
  | headerLength =>
    48 ≤ headerLengthOf packet ∧ headerLengthOf packet % 4 = 0 ∧
      headerLengthOf packet ≤ packet.length
  | payloadLength =>
    headerLengthOf packet + (HeaderWords.ofBytes packet).payloadLength.toNat = packet.length
  | extensions => tlvCode.Tiled Tlv.Skippable (extensionArea packet)
  | checksum =>
    config.validateChecksum = true →
      crc32c (checksumZeroed packet) = (HeaderWords.ofBytes packet).checksum
  | messageType => ∃ t, MessageType.fromU16 (HeaderWords.ofBytes packet).rawMsgType = .ok t
  | schema =>
    ∀ t, MessageType.fromU16 (HeaderWords.ofBytes packet).rawMsgType = .ok t →
      t.Schema (payloadArea packet)

/-- What is reported of the first offending record of an area: a record that
does not fit is malformed, a critical one is unsupported. -/
def OffendingTlv (area : List UInt8) (c : ErrorCode) : Prop :=
  ∃ rest, tlvCode.Stuck Tlv.Skippable area rest ∧
    ((∀ (t : Tlv) tail, rest ≠ t.bytes ++ tail) ∧ c = .malformedFrame ∨
      (∃ (t : Tlv) (tail : List UInt8), rest = t.bytes ++ tail) ∧ c = .unsupportedExtension)

namespace OffendingTlv

/-- Where no record starts. -/
theorem malformed {area : List UInt8} (nonempty : area ≠ [])
    (none : ∀ (t : Tlv) tail, area ≠ t.bytes ++ tail) : OffendingTlv area .malformedFrame :=
  ⟨area, ⟨[], by simp, rfl, nonempty, fun t tail h => absurd h (none t tail)⟩, .inl ⟨none, rfl⟩⟩

/-- Where a critical record starts. -/
theorem critical {t : Tlv} {tail : List UInt8} (h : ¬ t.Skippable) :
    OffendingTlv (t.bytes ++ tail) .unsupportedExtension := by
  refine ⟨t.bytes ++ tail, ⟨[], by simp, rfl, ?_, ?_⟩, .inr ⟨⟨t, tail, rfl⟩, rfl⟩⟩
  · intro empty
    exact tlvCode.nonempty t (List.append_eq_nil_iff.1 empty).1
  · rintro t' tail' heq
    obtain ⟨rfl, -⟩ := Tlv.bytes_unique heq
    exact h

/-- Behind a skippable record. -/
theorem cons {t : Tlv} {area : List UInt8} {c : ErrorCode} (ht : t.Skippable)
    (h : OffendingTlv area c) : OffendingTlv (t.bytes ++ area) c := by
  obtain ⟨rest, stuck, hc⟩ := h
  exact ⟨rest, stuck.cons ht, hc⟩

/-- An area with an offending record is not tiled by skippable ones. -/
theorem not_tiled {area : List UInt8} {c : ErrorCode} (h : OffendingTlv area c) :
    ¬ tlvCode.Tiled Tlv.Skippable area := by
  obtain ⟨rest, stuck, -⟩ := h
  exact stuck.not_tiled

/-- An area has one first offending record. -/
theorem unique {area : List UInt8} {c c' : ErrorCode} (h : OffendingTlv area c)
    (h' : OffendingTlv area c') : c = c' := by
  obtain ⟨rest, stuck, hc⟩ := h
  obtain ⟨rest', stuck', hc'⟩ := h'
  obtain rfl := stuck.rest_unique stuck'
  rcases hc with ⟨none, rfl⟩ | ⟨⟨t, tail, ht⟩, rfl⟩ <;> rcases hc' with ⟨none', rfl⟩ | ⟨⟨t', tail', ht'⟩, rfl⟩
  · rfl
  · exact absurd ht' (none t' tail')
  · exact absurd ht (none' t tail)
  · rfl

end OffendingTlv

/-- The error code of a broken schema. -/
def MessageType.schemaCode (payload : List UInt8) : MessageType → ErrorCode
  | replayRequest => if payload.length = 24 then .replayRangeInvalid else .malformedFrame
  | _ => .malformedFrame

/-- The error code of a violated rule. -/
def Rule.Code (packet : List UInt8) : Rule → ErrorCode → Prop
  | length, c => c = .malformedFrame
  | frameSize, c => c = .frameTooLarge
  | magic, c => c = .malformedFrame
  | version, c => c = .versionMismatch
  | headerLength, c => c = .malformedFrame
  | payloadLength, c => c = .malformedFrame
  | extensions, c => OffendingTlv (extensionArea packet) c
  | checksum, c => c = .checksumFailed
  | messageType, c => c = .unsupportedMessageType
  | schema, c =>
    ∃ t, MessageType.fromU16 (HeaderWords.ofBytes packet).rawMsgType = .ok t ∧
      c = t.schemaCode (payloadArea packet)

/-- The rules for one packet. An error reports a rule by its code. -/
def rules (crc32c : List UInt8 → UInt32) (config : CodecConfig) (packet : List UInt8) :
    RuleBook Rule RtdpError where
  Holds := Rule.Holds crc32c config packet
  Reports r e := ∃ c, e.code = some c ∧ r.Code packet c

/-- A rule has at most one code on a packet. -/
theorem Rule.code_unique {packet : List UInt8} {r : Rule} {c c' : ErrorCode} (h : r.Code packet c)
    (h' : r.Code packet c') : c = c' := by
  cases r with
  | extensions => exact OffendingTlv.unique h h'
  | schema =>
    obtain ⟨t, ht, rfl⟩ := h
    obtain ⟨t', ht', rfl⟩ := h'
    rw [ht] at ht'
    cases ht'
    rfl
  | _ => exact Eq.trans h (Eq.symm h')

/-- The order of the rules fixes the error code of a packet. -/
theorem firstViolated_code_unique {crc32c : List UInt8 → UInt32} {config : CodecConfig}
    {packet : List UInt8} {e e' : RtdpError}
    (h : (rules crc32c config packet).FirstViolated precedence e)
    (h' : (rules crc32c config packet).FirstViolated precedence e') : e.code = e'.code := by
  obtain ⟨before, r, after, heq, holds, broken, c, hc, code⟩ := h
  obtain ⟨before', r', after', heq', holds', broken', c', hc', code'⟩ := h'
  obtain rfl := first_unique (heq.symm.trans heq') holds broken holds' broken'
  rw [hc, hc', Rule.code_unique code code']

/-! ## The rules say what the grammar says -/

namespace FrameOf

variable {crc32c : List UInt8 → UInt32} {config : CodecConfig} {packet payload : List UInt8}
  {w : HeaderWords} {tlvs : List Tlv} {messageType : MessageType}

theorem ofBytes (h : FrameOf crc32c config packet w tlvs payload messageType) :
    HeaderWords.ofBytes packet = w := by
  rw [h.split, List.append_assoc, HeaderWords.ofBytes_bytes]

theorem headerLengthOf (h : FrameOf crc32c config packet w tlvs payload messageType) :
    headerLengthOf packet = 48 + (tlvCode.stream tlvs).length := by
  rw [Rtdp.headerLengthOf, h.ofBytes, h.header_length]

theorem extensionArea (h : FrameOf crc32c config packet w tlvs payload messageType) :
    extensionArea packet = tlvCode.stream tlvs := by
  rw [Rtdp.extensionArea, h.headerLengthOf, h.split, List.append_assoc,
    ← w.bytes_length, List.drop_left, Nat.add_sub_cancel_left, List.take_left]

theorem payloadArea (h : FrameOf crc32c config packet w tlvs payload messageType) :
    payloadArea packet = payload := by
  have front : (w.bytes ++ tlvCode.stream tlvs).length = 48 + (tlvCode.stream tlvs).length := by simp
  rw [Rtdp.payloadArea, h.headerLengthOf, h.split, ← front, List.drop_left]

theorem packet_length (h : FrameOf crc32c config packet w tlvs payload messageType) :
    packet.length = 48 + (tlvCode.stream tlvs).length + payload.length := by
  rw [h.split, List.length_append, List.length_append, w.bytes_length]

/-- A frame of the grammar meets every rule. -/
theorem holds (h : FrameOf crc32c config packet w tlvs payload messageType) (r : Rule) :
    (rules crc32c config packet).Holds r := by
  have len := h.packet_length
  have hl := h.headerLengthOf
  have aligned := four_dvd_stream tlvs
  change r.Holds crc32c config packet
  cases r with
  | length => exact h.length
  | frameSize => exact h.frame_size
  | magic => simpa only [Rule.Holds, h.ofBytes] using h.magic
  | version => simpa only [Rule.Holds, h.ofBytes] using h.version
  | headerLength =>
    simp only [Rule.Holds]
    omega
  | payloadLength =>
    simp only [Rule.Holds, h.ofBytes, h.payload_length]
    omega
  | extensions => exact ⟨tlvs, h.skippable, h.extensionArea⟩
  | checksum => simpa only [Rule.Holds, h.ofBytes] using h.checksum
  | messageType => exact ⟨messageType, h.ofBytes ▸ h.message_type⟩
  | schema =>
    intro t ht
    rw [h.ofBytes, h.message_type] at ht
    cases ht
    exact h.payloadArea ▸ h.schema

end FrameOf

/-- A packet that meets every rule is a frame of the grammar. -/
theorem grammar_of_holds {crc32c : List UInt8 → UInt32} {config : CodecConfig} {packet : List UInt8}
    (h : ∀ r ∈ precedence, (rules crc32c config packet).Holds r) : Grammar crc32c config packet := by
  have holds (r : Rule) : r.Holds crc32c config packet := h r (by cases r <;> simp [precedence])
  have length : 48 ≤ packet.length := holds .length
  obtain ⟨hmin, -, hmax⟩ := holds .headerLength
  have total := holds .payloadLength
  obtain ⟨tlvs, skippable, area⟩ := holds .extensions
  obtain ⟨t, ht⟩ := holds .messageType
  simp only [Rule.Holds] at total
  have area_length : (tlvCode.stream tlvs).length =
      headerLengthOf packet - 48 := by
    rw [← area, extensionArea, List.length_take, List.length_drop]
    omega
  have split : packet = (HeaderWords.ofBytes packet).bytes ++ tlvCode.stream tlvs ++
      payloadArea packet := by
    rw [HeaderWords.bytes_ofBytes length, ← area, extensionArea, payloadArea, List.append_assoc]
    nth_rewrite 1 [← List.take_append_drop 48 packet]
    congr 1
    nth_rewrite 1 [← List.take_append_drop (headerLengthOf packet - 48) (packet.drop 48)]
    rw [List.drop_drop, Nat.add_sub_cancel' hmin]
  exact ⟨HeaderWords.ofBytes packet, tlvs, payloadArea packet, t,
    { split
      length
      frame_size := holds .frameSize
      magic := holds .magic
      version := holds .version
      header_length := by
        rw [area_length]
        exact (Nat.add_sub_cancel' hmin).symm
      payload_length := by
        rw [payloadArea, List.length_drop]
        omega
      skippable
      checksum := holds .checksum
      message_type := ht
      schema := holds .schema t ht }⟩

/-- The rules together are the grammar. -/
theorem holds_iff_grammar (crc32c : List UInt8 → UInt32) (config : CodecConfig) (packet : List UInt8) :
    (∀ r ∈ precedence, (rules crc32c config packet).Holds r) ↔ Grammar crc32c config packet := by
  constructor
  · exact grammar_of_holds
  · rintro ⟨w, tlvs, payload, t, h⟩ r -
    exact h.holds r

end Rtdp
