import Rtdp.Core.Serialization.Verdict

/-!
# Round trips

`encode` writes a header with recomputed lengths, the extension bytes and the
payload, sealed with the checksum of the frame whose checksum field is zero.
Both round trips compare that frame with the decoder's grammar.
-/

namespace Rtdp
open BigEndian BufferM

/-- A frame that owns the bytes of a view. -/
def FrameView.toOwned (view : FrameView) : OwnedFrame where
  header := view.header
  extensionBytes := view.extensionBytes
  payload := view.payload

namespace OwnedFrame

/-- The header words `encode` writes, with checksum `c`. -/
def wireWords (frame : OwnedFrame) (c : UInt32) : HeaderWords :=
  { frame.header.words with
    headerLength := UInt16.ofNat (48 + frame.extensionBytes.length)
    payloadLength := UInt32.ofNat frame.payload.length
    checksum := c }

/-- The bytes of the frame under checksum `c`. -/
def wireBytes (frame : OwnedFrame) (c : UInt32) : List UInt8 :=
  (frame.wireWords c).bytes ++ frame.extensionBytes ++ frame.payload

/-- The bytes `encode` writes. -/
def sealed (crc32c : List UInt8 → UInt32) (frame : OwnedFrame) : List UInt8 :=
  frame.wireBytes (crc32c (frame.wireBytes 0))

def wireLength (frame : OwnedFrame) : Nat :=
  48 + frame.extensionBytes.length + frame.payload.length

@[simp] theorem wireBytes_length (frame : OwnedFrame) (c : UInt32) :
    (frame.wireBytes c).length = frame.wireLength := by
  simp [wireBytes, wireLength]
  omega

/-- Changing the checksum field of a frame. -/
theorem patch_wireBytes (frame : OwnedFrame) (c c' : UInt32) (rest : List UInt8) :
    patch (frame.wireBytes c ++ rest) 44 48 (writeU32 c') = frame.wireBytes c' ++ rest := by
  simp only [wireBytes, List.append_assoc]
  exact HeaderWords.patch_checksum (frame.wireWords c) _ c'

/-- The header on a sealed frame. -/
theorem ofBytes_sealed (crc32c : List UInt8 → UInt32) (frame : OwnedFrame) :
    HeaderWords.ofBytes (frame.sealed crc32c) = frame.wireWords (crc32c (frame.wireBytes 0)) := by
  rw [sealed, wireBytes, List.append_assoc, HeaderWords.ofBytes_bytes]

theorem rawMsgType_sealed (crc32c : List UInt8 → UInt32) (frame : OwnedFrame) :
    (HeaderWords.ofBytes (frame.sealed crc32c)).rawMsgType = frame.header.messageType.asU16 := by
  rw [ofBytes_sealed]
  rfl

theorem sequence_sealed (crc32c : List UInt8 → UInt32) (frame : OwnedFrame) :
    (HeaderWords.ofBytes (frame.sealed crc32c)).sequence = frame.seq := by
  rw [ofBytes_sealed]
  rfl

theorem publisherId_sealed (crc32c : List UInt8 → UInt32) (frame : OwnedFrame) :
    (HeaderWords.ofBytes (frame.sealed crc32c)).publisherId = frame.header.publisherId := by
  rw [ofBytes_sealed]
  rfl

end OwnedFrame

namespace FrameCodec

/-! ## What `encode` writes -/

/-- What `encode` asks of a frame and its destination. -/
structure Encodable (codec : FrameCodec) (frame : OwnedFrame) (dst : List UInt8) : Prop where
  aligned : (48 + frame.extensionBytes.length) % 4 = 0
  fits : frame.wireLength ≤ codec.config.maxFrameSize
  room : frame.wireLength ≤ dst.length

/-- The frame is written without its checksum first. -/
theorem exec_encode (crc32c : List UInt8 → UInt32) {self : FrameCodec} {frame : OwnedFrame}
    {dst : List UInt8} (h : self.Encodable frame dst) :
    exec (self.encode crc32c frame) dst =
      (.ok frame.wireLength, frame.sealed crc32c ++ dst.drop frame.wireLength) := by
  have hroom := h.room
  unfold OwnedFrame.wireLength at hroom
  have header : exec (onPrefix FIXED_HEADER_SIZE
      { frame.header with
        headerLength := UInt16.ofNat (FIXED_HEADER_SIZE + frame.extensionBytes.length)
        payloadLength := UInt32.ofNat frame.payload.length
        checksum := 0 }.encode) dst = (.ok (), (frame.wireWords 0).bytes ++ dst.drop 48) := by
    have front : 48 ≤ (dst.take 48).length := by simp; omega
    rw [FIXED_HEADER_SIZE, exec_onPrefix (by omega), FixedHeader.exec_encode _ front]
    simp [FixedHeader.words, OwnedFrame.wireWords]
  have extensions (h : frame.extensionBytes.length > 0) : exec (store FIXED_HEADER_SIZE
      (FIXED_HEADER_SIZE + frame.extensionBytes.length) frame.extensionBytes : BufferM RtdpError Unit)
        ((frame.wireWords 0).bytes ++ dst.drop 48) =
      (.ok (), (frame.wireWords 0).bytes ++ frame.extensionBytes ++
        dst.drop (48 + frame.extensionBytes.length)) :=
    exec_store_next (by simp [FIXED_HEADER_SIZE]) rfl (by simp [FIXED_HEADER_SIZE]; omega)
  have no_extensions (h : ¬ frame.extensionBytes.length > 0) :
      (frame.wireWords 0).bytes ++ dst.drop 48 = (frame.wireWords 0).bytes ++ frame.extensionBytes ++
        dst.drop (48 + frame.extensionBytes.length) := by
    have hnil : frame.extensionBytes = [] := List.eq_nil_of_length_eq_zero (by omega)
    simp [hnil]
  have payload : exec (store (FIXED_HEADER_SIZE + frame.extensionBytes.length) frame.wireLength
      frame.payload : BufferM RtdpError Unit) ((frame.wireWords 0).bytes ++ frame.extensionBytes ++
        dst.drop (48 + frame.extensionBytes.length)) =
      (.ok (), frame.wireBytes 0 ++ dst.drop frame.wireLength) :=
    exec_store_next (by simp [FIXED_HEADER_SIZE]) rfl h.room
  have whole : slice (ε := RtdpError) (frame.wireBytes 0 ++ dst.drop frame.wireLength) 0
      frame.wireLength = .ok (frame.wireBytes 0) := by
    rw [slice_eq (by omega) (by simp), ← frame.wireBytes_length 0]
    simp
  have checksum : exec (store 44 48 (writeU32 (crc32c (frame.wireBytes 0))) : BufferM RtdpError Unit)
      (frame.wireBytes 0 ++ dst.drop frame.wireLength) =
      (.ok (), frame.sealed crc32c ++ dst.drop frame.wireLength) := by
    rw [exec_store (by omega) (by simp [OwnedFrame.wireLength]; omega) (by simp),
      frame.patch_wireBytes]
    rfl
  unfold encode
  refine (exec_else (not_not_intro h.aligned)).trans ?_
  refine (exec_else (Nat.not_lt.2 h.fits)).trans ?_
  refine (exec_bind_ok (exec_get dst)).trans ?_
  refine (exec_else (Nat.not_lt.2 h.room)).trans ?_
  refine (exec_bind_ok header).trans ?_
  refine (exec_when extensions no_extensions).trans ?_
  refine (exec_bind_ok payload).trans ?_
  refine (exec_bind_ok (exec_get _)).trans ?_
  refine (exec_bind_ok ((exec_lift _ _).trans (congrArg (·, _) whole))).trans ?_
  exact exec_bind_ok checksum

/-- A frame that cannot be encoded is refused, and nothing is written. -/
theorem exec_encode_refused (crc32c : List UInt8 → UInt32) {self : FrameCodec} {frame : OwnedFrame}
    {dst : List UInt8} (h : ¬ self.Encodable frame dst) :
    ∃ e, exec (self.encode crc32c frame) dst = (.error (.err e), dst) := by
  unfold encode
  by_cases aligned : (FIXED_HEADER_SIZE + frame.extensionBytes.length) % 4 ≠ 0
  · exact ⟨_, exec_stop aligned⟩
  by_cases fits : FIXED_HEADER_SIZE + frame.extensionBytes.length + frame.payload.length >
      self.config.maxFrameSize
  · exact ⟨_, (exec_else aligned).trans (exec_stop fits)⟩
  by_cases room : dst.length < FIXED_HEADER_SIZE + frame.extensionBytes.length + frame.payload.length
  · exact ⟨_, (exec_else aligned).trans ((exec_else fits).trans
      ((exec_bind_ok (exec_get dst)).trans (exec_stop room)))⟩
  · exact absurd ⟨not_not.1 aligned, Nat.le_of_not_lt fits, Nat.le_of_not_lt room⟩ h

/-- What a successful `encode` returns and writes. -/
theorem encode_ok {crc32c : List UInt8 → UInt32} {self : FrameCodec} {frame : OwnedFrame}
    {dst out : List UInt8} {n : Nat} (h : exec (self.encode crc32c frame) dst = (.ok n, out)) :
    self.Encodable frame dst ∧ n = frame.wireLength ∧
      out = frame.sealed crc32c ++ dst.drop frame.wireLength := by
  by_cases encodable : self.Encodable frame dst
  · rw [exec_encode crc32c encodable] at h
    cases h
    exact ⟨encodable, rfl, rfl⟩
  · obtain ⟨e, refused⟩ := exec_encode_refused crc32c encodable
    rw [refused] at h
    cases h

/-- The written part of the buffer is the sealed frame. -/
theorem encode_take {crc32c : List UInt8 → UInt32} {self : FrameCodec} {frame : OwnedFrame}
    {dst out : List UInt8} {n : Nat} (h : exec (self.encode crc32c frame) dst = (.ok n, out)) :
    out.take n = frame.sealed crc32c := by
  obtain ⟨-, rfl, rfl⟩ := encode_ok h
  rw [← frame.wireBytes_length (crc32c (frame.wireBytes 0))]
  exact List.take_left

/-! ## The encoded frame and the grammar -/

/-- Zeroing the checksum of an encoded frame. -/
theorem checksumZeroed_wireBytes (frame : OwnedFrame) (c : UInt32) :
    checksumZeroed (frame.wireBytes c) = frame.wireBytes 0 := by
  have patched := frame.patch_wireBytes c 0 []
  rw [List.append_nil, List.append_nil] at patched
  exact patched

/-- The decoder's answer on a frame of the grammar. -/
theorem exec_decode {crc32c : List UInt8 → UInt32} {self : FrameCodec} {packet payload : List UInt8}
    {w : HeaderWords} {tlvs : List Tlv} {messageType : MessageType}
    (h : FrameOf crc32c self.config packet w tlvs payload messageType) :
    exec (self.decode crc32c) packet =
      (.ok { header := w.header messageType, extensionBytes := tlvCode.stream tlvs, payload }, packet) := by
  obtain ⟨out, hexec, judged⟩ := self.decode_judges crc32c packet
  obtain ⟨view, rfl⟩ := judged.ok_iff.2 fun r _ => h.holds r
  obtain ⟨t, ht, rfl⟩ := judged.2
  rw [h.ofBytes, h.message_type] at ht
  cases ht
  rw [hexec, viewOf, h.ofBytes, h.extensionArea, h.payloadArea]

/-- A packet that is decoded is a frame of the grammar, and its view shows the parts. -/
theorem frameOf_decoded {crc32c : List UInt8 → UInt32} {self : FrameCodec} {packet out : List UInt8}
    {view : FrameView} (h : exec (self.decode crc32c) packet = (.ok view, out)) :
    ∃ w tlvs messageType, FrameOf crc32c self.config packet w tlvs view.payload messageType ∧
      view.header = w.header messageType ∧ view.extensionBytes = tlvCode.stream tlvs := by
  obtain ⟨judgement, hexec, judged⟩ := self.decode_judges crc32c packet
  obtain rfl : judgement = .ok view := (congrArg Prod.fst hexec).symm.trans (congrArg Prod.fst h)
  obtain ⟨w, tlvs, payload, messageType, frame⟩ := grammar_of_holds judged.1
  have view_eq := congrArg Prod.fst ((exec_decode frame).symm.trans h)
  cases view_eq
  exact ⟨w, tlvs, messageType, frame, rfl, rfl⟩

/-- An encoded frame with skippable records and a payload of its type's schema
is a frame of the grammar. -/
theorem frameOf_sealed (crc32c : List UInt8 → UInt32) {self : FrameCodec} {frame : OwnedFrame}
    {dst : List UInt8} {tlvs : List Tlv} (encodable : self.Encodable frame dst)
    (magic : frame.header.magic = MAGIC_RTDP) (version : frame.header.version = RTDP_VERSION_1)
    (message_type : MessageType.fromU16 frame.header.messageType.asU16 = .ok frame.header.messageType)
    (skippable : ∀ t ∈ tlvs, t.Skippable) (extensions : frame.extensionBytes = tlvCode.stream tlvs)
    (extensions_fit : frame.extensionBytes.length ≤ 65487) (payload_fits : frame.payload.length < 2 ^ 32)
    (schema : frame.header.messageType.Schema frame.payload) :
    FrameOf crc32c self.config (frame.sealed crc32c) (frame.wireWords (crc32c (frame.wireBytes 0))) tlvs
      frame.payload frame.header.messageType where
  split := by rw [← extensions]; rfl
  length := by
    rw [OwnedFrame.sealed, frame.wireBytes_length, OwnedFrame.wireLength]
    omega
  frame_size := by
    rw [OwnedFrame.sealed, frame.wireBytes_length]
    exact encodable.fits
  magic := magic
  version := version
  header_length := by
    rw [← extensions]
    exact UInt16.toNat_ofNat_of_lt' (by show _ < 65536; omega)
  payload_length := UInt32.toNat_ofNat_of_lt' payload_fits
  skippable := skippable
  checksum := fun _ => by
    rw [OwnedFrame.sealed, checksumZeroed_wireBytes]
    rfl
  message_type := message_type
  schema := schema

/-- A sealed frame is read as nothing but its own parts. -/
theorem parts_of_sealed {crc32c : List UInt8 → UInt32} {config : CodecConfig} {frame : OwnedFrame}
    {payload : List UInt8} {w : HeaderWords} {tlvs : List Tlv} {messageType : MessageType}
    (h : FrameOf crc32c config (frame.sealed crc32c) w tlvs payload messageType) :
    w = frame.wireWords (crc32c (frame.wireBytes 0)) ∧ frame.extensionBytes = tlvCode.stream tlvs ∧
      frame.payload = payload := by
  obtain rfl : w = frame.wireWords (crc32c (frame.wireBytes 0)) := by
    rw [← h.ofBytes, OwnedFrame.ofBytes_sealed]
  -- the length fields count the bytes behind the header, so neither wraps
  have split : frame.extensionBytes ++ frame.payload = tlvCode.stream tlvs ++ payload :=
    List.append_cancel_left ((List.append_assoc _ _ _).symm.trans
      (h.split.trans (List.append_assoc _ _ _)))
  have total := congrArg List.length split
  have header_length := h.header_length
  have payload_length := h.payload_length
  have header_le : (UInt16.ofNat (48 + frame.extensionBytes.length)).toNat ≤
      48 + frame.extensionBytes.length := Nat.mod_le _ _
  have payload_le : (UInt32.ofNat frame.payload.length).toNat ≤ frame.payload.length := Nat.mod_le _ _
  simp only [OwnedFrame.wireWords, List.length_append] at total header_length payload_length
  obtain ⟨extensions, rest⟩ := List.append_inj split (by omega)
  exact ⟨rfl, extensions, rest⟩

/-- A decoded packet is what its view encodes to. -/
theorem sealed_of_frameOf {crc32c : List UInt8 → UInt32} {config : CodecConfig}
    {packet payload : List UInt8} {w : HeaderWords} {tlvs : List Tlv} {messageType : MessageType}
    (validates : config.validateChecksum = true)
    (h : FrameOf crc32c config packet w tlvs payload messageType) :
    OwnedFrame.sealed crc32c ⟨w.header messageType, tlvCode.stream tlvs, payload⟩ = packet := by
  obtain ⟨frame, hframe⟩ : ∃ frame : OwnedFrame,
      frame = ⟨w.header messageType, tlvCode.stream tlvs, payload⟩ := ⟨_, rfl⟩
  have words : frame.wireWords w.checksum = w := by
    rw [hframe, OwnedFrame.wireWords, FixedHeader.words_header h.message_type, ← h.header_length,
      ← h.payload_length, UInt16.ofNat_toNat, UInt32.ofNat_toNat]
  have whole : frame.wireBytes w.checksum = packet := by
    rw [OwnedFrame.wireBytes, words, hframe, h.split]
  rw [← hframe]
  calc frame.sealed crc32c = frame.wireBytes (crc32c (checksumZeroed packet)) := by
        rw [OwnedFrame.sealed, ← whole, checksumZeroed_wireBytes]
    _ = frame.wireBytes w.checksum := by rw [h.checksum validates]
    _ = packet := whole

/-! ## Round trips -/

/-- Decoding what was encoded gives the frame back, lengths and checksum recomputed. -/
theorem decode_encode (crc32c : List UInt8 → UInt32) (self : FrameCodec) (frame : OwnedFrame)
    (dst : List UInt8) (magic : frame.header.magic = MAGIC_RTDP)
    (version : frame.header.version = RTDP_VERSION_1)
    (message_type : MessageType.fromU16 frame.header.messageType.asU16 = .ok frame.header.messageType)
    (extensions : tlvCode.Tiled Tlv.Skippable frame.extensionBytes)
    (extensions_fit : frame.extensionBytes.length ≤ 65487) (payload_fits : frame.payload.length < 2 ^ 32)
    (schema : frame.header.messageType.Schema frame.payload) {n : Nat} {out : List UInt8}
    (encoded : exec (self.encode crc32c frame) dst = (.ok n, out)) :
    n = 48 + frame.extensionBytes.length + frame.payload.length ∧
      exec (self.decode crc32c) (out.take n) =
        (.ok
          { header :=
              { frame.header with
                headerLength := UInt16.ofNat (48 + frame.extensionBytes.length)
                payloadLength := UInt32.ofNat frame.payload.length
                checksum := crc32c (checksumZeroed (out.take n)) }
            extensionBytes := frame.extensionBytes
            payload := frame.payload },
          out.take n) := by
  have front := encode_take encoded
  obtain ⟨encodable, rfl, rfl⟩ := encode_ok encoded
  obtain ⟨tlvs, skippable, area⟩ := extensions
  have grammar := frameOf_sealed crc32c encodable magic version message_type skippable area
    extensions_fit payload_fits schema
  refine ⟨rfl, ?_⟩
  rw [front, exec_decode grammar, ← area, OwnedFrame.sealed, checksumZeroed_wireBytes]
  rfl

/-- A data frame with flags set, one record with nonzero padding, and two payload bytes. -/
def paddedFrame : OwnedFrame where
  header :=
    { FixedHeader.newData 42 101 0 1001 2 56 with
      flags := ⟨0x07⟩
      checksum := 0x80a4f604 }
  extensionBytes := [0x00, 0x02, 0x00, 0x01, 0x55, 0xde, 0xad, 0xbe]
  payload := [0x48, 0x49]

/-- The frame as it stands on the wire. -/
def paddedPacket : List UInt8 :=
  [0x52, 0x54, 0x01, 0x07, 0x00, 0x01, 0x00, 0x38,
    0x00, 0x00, 0x00, 0x00, 0x00, 0x00, 0x00, 0x2a,
    0x00, 0x00, 0x00, 0x00, 0x00, 0x00, 0x00, 0x65,
    0x00, 0x00, 0x00, 0x00, 0x00, 0x00, 0x00, 0x00,
    0x00, 0x00, 0x00, 0x00, 0x00, 0x00, 0x03, 0xe9,
    0x00, 0x00, 0x00, 0x02, 0x80, 0xa4, 0xf6, 0x04,
    0x00, 0x02, 0x00, 0x01, 0x55, 0xde, 0xad, 0xbe,
    0x48, 0x49]

theorem decode_encode_padded :
    exec (withDefaultConfig.decode crc32c) ((paddedPacket ++ [0, 0]).take 58) =
      (.ok paddedFrame.view, paddedPacket) :=
  (decode_encode crc32c withDefaultConfig paddedFrame (List.replicate 60 0) rfl rfl rfl
    ⟨[⟨0x0002, [0x55], [0xde, 0xad, 0xbe], by decide, by decide⟩], by decide, by decide⟩ (by decide)
    (by decide) trivial
    (show exec _ _ = (.ok 58, paddedPacket ++ [0, 0]) by decide +kernel)).2.trans (by decide +kernel)

/-- Encoding what was decoded gives the packet back. -/
theorem encode_decode (crc32c : List UInt8 → UInt32) (self : FrameCodec)
    (validates : self.config.validateChecksum = true) {packet after : List UInt8} {view : FrameView}
    (decoded : exec (self.decode crc32c) packet = (.ok view, after)) (dst : List UInt8)
    (room : packet.length ≤ dst.length) :
    exec (self.encode crc32c view.toOwned) dst =
      (.ok packet.length, packet ++ dst.drop packet.length) := by
  obtain ⟨w, tlvs, messageType, grammar, hheader, hext⟩ := frameOf_decoded decoded
  have owned : view.toOwned = ⟨w.header messageType, tlvCode.stream tlvs, view.payload⟩ := by
    rw [FrameView.toOwned, hheader, hext]
  have wire_length : view.toOwned.wireLength = packet.length := by
    rw [owned, grammar.packet_length]
    rfl
  have encodable : self.Encodable view.toOwned dst := by
    refine ⟨?_, wire_length ▸ grammar.frame_size, wire_length ▸ room⟩
    have aligned := four_dvd_stream tlvs
    rw [owned]
    change (48 + (tlvCode.stream tlvs).length) % 4 = 0
    omega
  rw [exec_encode crc32c encodable, wire_length, owned, sealed_of_frameOf validates grammar]

theorem encode_decode_padded :
    exec (withDefaultConfig.encode crc32c paddedFrame) (List.replicate 60 0) =
      (.ok 58, paddedPacket ++ [0, 0]) :=
  encode_decode crc32c withDefaultConfig rfl
    (show exec _ paddedPacket = (.ok paddedFrame.view, paddedPacket) by decide +kernel)
    (List.replicate 60 0) (by decide)

/-! ## The caller's buffers -/

/-- A failed `encode` has written nothing. -/
theorem encode_error {crc32c : List UInt8 → UInt32} {self : FrameCodec} {frame : OwnedFrame}
    {dst out : List UInt8} {fault : Fault RtdpError}
    (h : exec (self.encode crc32c frame) dst = (.error fault, out)) : out = dst := by
  by_cases encodable : self.Encodable frame dst
  · rw [exec_encode crc32c encodable] at h
    cases h
  · obtain ⟨e, refused⟩ := exec_encode_refused crc32c encodable
    rw [refused] at h
    cases h
    rfl

/-- `decode` returns, with the packet as it was; `encode` writes nothing when it fails, and
nothing behind the frame when it does not. -/
theorem codec_leaves_buffers (crc32c : List UInt8 → UInt32) (self : FrameCodec) :
    (∀ packet, (exec (self.decode crc32c) packet).1 ≠ .error .panic ∧
      (exec (self.decode crc32c) packet).2 = packet ∧
      exec (self.decode crc32c) (exec (self.decode crc32c) packet).2 = exec (self.decode crc32c) packet) ∧
    ∀ frame dst,
      (∀ fault out, exec (self.encode crc32c frame) dst = (.error fault, out) → out = dst) ∧
      ∀ n out, exec (self.encode crc32c frame) dst = (.ok n, out) →
        n ≤ out.length ∧ out.length = dst.length ∧ out.drop n = dst.drop n := by
  refine ⟨fun packet => ?_, fun frame dst => ⟨fun fault out => encode_error, fun n out h => ?_⟩⟩
  · obtain ⟨judgement, hexec, judged⟩ := self.decode_judges crc32c packet
    have hkept : (exec (self.decode crc32c) packet).2 = packet := congrArg Prod.snd hexec
    refine ⟨fun panics => ?_, hkept, by rw [hkept]⟩
    rw [hexec] at panics
    obtain ⟨e, he, -⟩ := judged.error panics
    cases he
  · obtain ⟨encodable, rfl, rfl⟩ := encode_ok h
    have hroom := encodable.room
    have hsealed : (frame.sealed crc32c).length = frame.wireLength := frame.wireBytes_length _
    refine ⟨?_, ?_, ?_⟩
    · rw [List.length_append, hsealed]
      exact Nat.le_add_right _ _
    · rw [List.length_append, hsealed, List.length_drop]
      omega
    · rw [← hsealed]
      exact List.drop_left

end FrameCodec

end Rtdp
