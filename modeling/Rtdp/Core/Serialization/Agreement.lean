import Rtdp.Core.Serialization.RoundTrip

/-!
# What the encoder lets through

`encode` checks the alignment of the extension bytes and the size of the whole
frame. The decoder checks more, and `encode` cuts the header length to 16 bits:
what was encoded is decoded again exactly when the frame is well formed.
-/

namespace Rtdp
open BigEndian BufferM

/-- What the decoder asks of a frame, and `encode` does not. -/
structure OwnedFrame.WellFormed (frame : OwnedFrame) : Prop where
  extensions : tlvCode.Tiled Tlv.Skippable frame.extensionBytes
  extensions_fit : frame.extensionBytes.length ≤ 65487
  payload_fits : frame.payload.length < 2 ^ 32
  schema : frame.header.messageType.Schema frame.payload

namespace FrameCodec

variable {crc32c : List UInt8 → UInt32} {self : FrameCodec} {frame : OwnedFrame} {dst : List UInt8}

/-- What is read of a sealed frame was well formed. -/
theorem wellFormed_of_frameOf {config : CodecConfig} {payload : List UInt8} {w : HeaderWords}
    {tlvs : List Tlv} {messageType : MessageType}
    (message_type : MessageType.fromU16 frame.header.messageType.asU16 = .ok frame.header.messageType)
    (h : FrameOf crc32c config (frame.sealed crc32c) w tlvs payload messageType) : frame.WellFormed := by
  obtain ⟨rfl, extensions, rfl⟩ := parts_of_sealed h
  have header_length := h.header_length
  have payload_length := h.payload_length
  have header_bound := (frame.wireWords (crc32c (frame.wireBytes 0))).headerLength.toNat_lt
  have payload_bound := (frame.wireWords (crc32c (frame.wireBytes 0))).payloadLength.toNat_lt
  obtain rfl : frame.header.messageType = messageType :=
    Except.ok.inj (message_type.symm.trans h.message_type)
  refine ⟨⟨tlvs, h.skippable, extensions⟩, ?_, ?_, h.schema⟩
  · rw [extensions]
    omega
  · omega

/-- A sealed frame is decoded exactly when it is well formed. -/
theorem decode_sealed_iff (encodable : self.Encodable frame dst) (magic : frame.header.magic = MAGIC_RTDP)
    (version : frame.header.version = RTDP_VERSION_1)
    (message_type : MessageType.fromU16 frame.header.messageType.asU16 = .ok frame.header.messageType) :
    (∃ view, (exec (self.decode crc32c) (frame.sealed crc32c)).1 = .ok view) ↔ frame.WellFormed := by
  constructor
  · rintro ⟨view, decoded⟩
    generalize hexec : exec (self.decode crc32c) (frame.sealed crc32c) = result at decoded
    obtain ⟨judgement, after⟩ := result
    subst decoded
    obtain ⟨w, tlvs, messageType, grammar, -⟩ := frameOf_decoded hexec
    exact wellFormed_of_frameOf message_type grammar
  · rintro ⟨⟨tlvs, skippable, extensions⟩, extensions_fit, payload_fits, schema⟩
    have grammar := frameOf_sealed crc32c encodable magic version message_type skippable extensions
      extensions_fit payload_fits schema
    exact ⟨_, congrArg Prod.fst (exec_decode grammar)⟩

/-- **Encoder and decoder agree** on exactly the well-formed frames. -/
theorem encode_decodable (crc32c : List UInt8 → UInt32) (self : FrameCodec) (frame : OwnedFrame)
    (dst : List UInt8) (magic : frame.header.magic = MAGIC_RTDP)
    (version : frame.header.version = RTDP_VERSION_1)
    (message_type : MessageType.fromU16 frame.header.messageType.asU16 = .ok frame.header.messageType)
    {n : Nat} {out : List UInt8} (encoded : exec (self.encode crc32c frame) dst = (.ok n, out)) :
    (∃ view, (exec (self.decode crc32c) (out.take n)).1 = .ok view) ↔ frame.WellFormed := by
  rw [encode_take encoded]
  exact decode_sealed_iff (encode_ok encoded).1 magic version message_type

theorem encode_decodable_padded :
    (∃ view, (exec (withDefaultConfig.decode Rtdp.crc32c)
      ((paddedPacket ++ [0, 0]).take 58)).1 = .ok view) ↔ paddedFrame.WellFormed :=
  encode_decodable Rtdp.crc32c withDefaultConfig paddedFrame (List.replicate 60 0) rfl rfl rfl
    (show exec _ _ = (.ok 58, paddedPacket ++ [0, 0]) by decide +kernel)

/-- A record of zero bytes without padding. -/
def zeroRecord (n : Nat) (fits : n < 2 ^ 16) (aligned : n % 4 = 0) : Tlv where
  extType := 0x0002
  value := List.replicate n 0
  padding := []
  value_fits := by rwa [List.length_replicate]
  padding_length := by
    rw [List.length_replicate, List.length_nil, paddedLen]
    omega

theorem zeroRecord_length (n : Nat) (fits : n < 2 ^ 16) (aligned : n % 4 = 0) :
    (zeroRecord n fits aligned).bytes.length = 4 + n := by
  rw [Tlv.bytes_length, zeroRecord, List.length_replicate, paddedLen]
  omega

/-- A record that does not fit into a header of 65535 bytes. -/
def longRecord : Tlv := zeroRecord 65484 (by omega) (by omega)

/-- A data frame whose header takes 65536 bytes. -/
def longFrame : OwnedFrame where
  header := FixedHeader.newData 42 1 0 1001 0 48
  extensionBytes := longRecord.bytes
  payload := []

theorem longFrame_extensions : longFrame.extensionBytes.length = 65488 :=
  zeroRecord_length 65484 (by omega) (by omega)

theorem longFrame_tiled : tlvCode.Tiled Tlv.Skippable longFrame.extensionBytes := by
  rw [longFrame, ← List.append_nil longRecord.bytes]
  exact PrefixCode.Tiled.cons (C := tlvCode) rfl PrefixCode.Tiled.nil

theorem longFrame_encodable :
    (new ⟨65536, true⟩).Encodable longFrame (List.replicate 65536 0) := by
  have length : longFrame.wireLength = 65536 := by
    rw [OwnedFrame.wireLength, longFrame_extensions, longFrame, List.length_nil]
  refine ⟨by rw [longFrame_extensions], length.le, ?_⟩
  rw [length, List.length_replicate]

/-- Its header length is cut to 0. -/
theorem encode_truncates :
    tlvCode.Tiled Tlv.Skippable longFrame.extensionBytes ∧
      ∃ n out, exec ((new ⟨65536, true⟩).encode Rtdp.crc32c longFrame) (List.replicate 65536 0) =
          (.ok n, out) ∧
        ¬ ∃ view, (exec ((new ⟨65536, true⟩).decode Rtdp.crc32c) (out.take n)).1 = .ok view := by
  have encoded := exec_encode Rtdp.crc32c longFrame_encodable
  refine ⟨longFrame_tiled, _, _, encoded, ?_⟩
  rw [encode_take encoded, decode_sealed_iff longFrame_encodable rfl rfl rfl]
  intro wellFormed
  have fits := wellFormed.extensions_fit
  rw [longFrame_extensions] at fits
  omega

end FrameCodec

end Rtdp
