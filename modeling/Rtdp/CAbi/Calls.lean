import Rtdp.Core.Serialization.RoundTrip

/-!
# The C interface (`c-abi/src/lib.rs`)

`rtdp_decode` and `rtdp_encode` wrap the codec for C callers: pointers that may
be null, a flat header, and an `i32` that is 0 or the negated error code. A
pointer is an `Option` of what it points to; `none` as the result of a call is a
panic, which aborts the process.

A decoded packet can be encoded again from what `rtdp_decode` hands out, but the
extensions are not part of that: exactly a packet without any is reproduced.
-/

namespace Rtdp
open BufferM

/-- `rtdp_header_t` -/
structure RtdpHeader where
  magic : UInt16
  version : UInt8
  flags : UInt8
  messageType : UInt16
  headerLength : UInt16
  streamId : UInt64
  sequence : UInt64
  timestampNs : UInt64
  publisherId : UInt64
  payloadLength : UInt32
  checksum : UInt32
  deriving DecidableEq, Repr

def RtdpHeader.ofHeader (header : FixedHeader) : RtdpHeader where
  magic := header.magic
  version := header.version
  flags := header.flags.bits
  messageType := header.messageType.asU16
  headerLength := header.headerLength
  streamId := header.streamId
  sequence := header.sequence
  timestampNs := header.timestampNs
  publisherId := header.publisherId
  payloadLength := header.payloadLength
  checksum := header.checksum

/-- What the out pointers of `rtdp_decode` point to; `*out_payload` is a pointer to bytes. -/
structure DecodeOut where
  header : Option RtdpHeader
  payload : Option (List UInt8)
  payloadLen : Option Nat
  deriving DecidableEq, Repr

/-- The out pointers that are not null are written. -/
def DecodeOut.write (self : DecodeOut) (view : FrameView) : DecodeOut where
  header := self.header.map fun _ => .ofHeader view.header
  payload := self.payload.map fun _ => view.payload
  payloadLen := self.payloadLen.map fun _ => view.payload.length

/-- The negated code of an error, or `fallback` for one without a code. -/
def errorReturn (fallback : Int) (e : RtdpError) : Int :=
  match e.code with
  | some code => -code.asU16.toNat
  | none => fallback

def rtdpDecode (crc32c : List UInt8 → UInt32) (codec : Option FrameCodec) (buf : Option (List UInt8))
    (out : DecodeOut) : Option (Int × Option (List UInt8) × DecodeOut) :=
  match codec, buf with
  | some codec, some slice =>
    match exec (codec.decode crc32c) slice with
    | (.ok view, slice) => some (0, some slice, out.write view)
    | (.error (.err e), slice) => some (errorReturn (-2) e, some slice, out)
    | (.error .panic, _) => none
  | _, buf => some (-2, buf, out)

/-- The frame `rtdp_encode` builds: no extensions. -/
def RtdpHeader.frame (h : RtdpHeader) (messageType : MessageType) (payloadLen : Nat)
    (payload : List UInt8) : OwnedFrame where
  header :=
    { magic := h.magic
      version := h.version
      flags := ⟨h.flags⟩
      messageType := messageType
      headerLength := h.headerLength
      streamId := h.streamId
      sequence := h.sequence
      timestampNs := h.timestampNs
      publisherId := h.publisherId
      payloadLength := UInt32.ofNat payloadLen
      checksum := h.checksum }
  extensionBytes := []
  payload := payload

/-- The bytes `rtdp_encode` takes from its payload pointer, which leads to at least `payloadLen` bytes:
that is for the caller to see to. -/
def payloadSlice (payload : Option (List UInt8)) (payloadLen : Nat) : List UInt8 :=
  match payload with
  | none => []
  | some bytes => if payloadLen = 0 then [] else bytes.take payloadLen

def rtdpEncode (crc32c : List UInt8 → UInt32) (codec : Option FrameCodec) (inHeader : Option RtdpHeader)
    (payload : Option (List UInt8)) (payloadLen : Nat) (outBuf : Option (List UInt8))
    (outLen : Option Nat) : Option (Int × Option (List UInt8) × Option Nat) :=
  match codec, inHeader, outBuf, outLen with
  | some codec, some h, some outSlice, some len =>
    match MessageType.fromU16 h.messageType with
    | .error e => some (errorReturn (-4) e, some outSlice, some len)
    | .ok messageType =>
      match exec (codec.encode crc32c (h.frame messageType payloadLen (payloadSlice payload payloadLen)))
          outSlice with
      | (.ok n, outSlice) => some (0, some outSlice, some n)
      | (.error (.err e), outSlice) => some (errorReturn (-2) e, some outSlice, some len)
      | (.error .panic, _) => none
  | _, _, outBuf, outLen => some (-2, outBuf, outLen)

variable {crc32c : List UInt8 → UInt32} {codec : FrameCodec} {packet : List UInt8} {view : FrameView}

/-! ## Decoding -/

theorem errorReturn_code {e : RtdpError} {code : ErrorCode} (h : e.code = some code) (fallback : Int) :
    errorReturn fallback e = -code.asU16.toNat := by
  rw [errorReturn, h]

/-- No code is 0, the value for success. -/
theorem errorReturn_ne_zero {e : RtdpError} {code : ErrorCode} (h : e.code = some code) (fallback : Int) :
    errorReturn fallback e ≠ 0 := by
  have hpos := code.asU16_pos
  rw [errorReturn_code h]
  omega

/-- `decode` accepts and the view is handed out, or it reports the first violated rule. -/
theorem rtdpDecode_cases (crc32c : List UInt8 → UInt32) (codec : FrameCodec) (packet : List UInt8)
    (out : DecodeOut) :
    (∃ view, exec (codec.decode crc32c) packet = (.ok view, packet) ∧
        rtdpDecode crc32c (some codec) (some packet) out = some (0, some packet, out.write view)) ∨
      ∃ e, exec (codec.decode crc32c) packet = (.error (.err e), packet) ∧
        (rules crc32c codec.config packet).FirstViolated precedence e ∧
        rtdpDecode crc32c (some codec) (some packet) out = some (errorReturn (-2) e, some packet, out) := by
  obtain ⟨judgement, hexec, judged⟩ := codec.decode_judges crc32c packet
  rcases judgement with (e | -) | view
  · exact Or.inr ⟨e, hexec, judged, by simp only [rtdpDecode, hexec]⟩
  · exact (judged : False).elim
  · exact Or.inl ⟨view, hexec, by simp only [rtdpDecode, hexec]⟩

/-- What `rtdp_decode` returns and writes: 0 and the parts of the frame for a frame of the grammar, the
code of the first violated rule and nothing for any other packet. -/
structure DecodeVerdict (crc32c : List UInt8 → UInt32) (config : CodecConfig) (packet : List UInt8)
    (out : DecodeOut) (code : Int) (after : DecodeOut) : Prop where
  accepted : code = 0 ↔ Grammar crc32c config packet
  written : ∀ w tlvs payload messageType, FrameOf crc32c config packet w tlvs payload messageType →
    after = out.write ⟨w.header messageType, tlvCode.stream tlvs, payload⟩
  refused : code ≠ 0 → after = out ∧ ∃ e c, (rules crc32c config packet).FirstViolated precedence e ∧
    e.code = some c ∧ code = -(c.asU16.toNat : Int)

/-- **`rtdp_decode` judges a packet** by the rules of the decoder in their order. It does not panic, and
leaves the packet as it was. -/
theorem rtdp_decode_verdict (crc32c : List UInt8 → UInt32) (codec : FrameCodec) (packet : List UInt8)
    (out : DecodeOut) :
    ∃ code after, rtdpDecode crc32c (some codec) (some packet) out = some (code, some packet, after) ∧
      DecodeVerdict crc32c codec.config packet out code after := by
  rcases rtdpDecode_cases crc32c codec packet out with ⟨view, hexec, hcall⟩ | ⟨e, hexec, first, hcall⟩
  · obtain ⟨w, tlvs, messageType, frame, -⟩ := FrameCodec.frameOf_decoded hexec
    refine ⟨_, _, hcall, iff_of_true rfl ⟨_, _, _, _, frame⟩, ?_, fun h => absurd rfl h⟩
    intro w tlvs payload messageType frame
    have decoded := hexec.symm.trans (FrameCodec.exec_decode frame)
    rw [Except.ok.inj (congrArg Prod.fst decoded)]
  · have noFrame : ∀ w tlvs payload messageType,
        ¬ FrameOf crc32c codec.config packet w tlvs payload messageType :=
      fun _ _ _ _ frame => first.not_all fun r _ => frame.holds r
    obtain ⟨-, r, -, -, -, -, c, hcode, -⟩ := id first
    refine ⟨_, _, hcall, iff_of_false (errorReturn_ne_zero hcode (-2)) ?_, ?_,
      fun _ => ⟨rfl, e, c, first, hcode, errorReturn_code hcode (-2)⟩⟩
    · rintro ⟨w, tlvs, payload, messageType, frame⟩
      exact noFrame _ _ _ _ frame
    · exact fun w tlvs payload messageType frame => (noFrame _ _ _ _ frame).elim

/-! ## Encoding -/

/-- Which check of `encode` a frame without extensions fails. -/
theorem exec_encode_bare {frame : OwnedFrame} (bare : frame.extensionBytes = []) (dst : List UInt8) :
    codec.Encodable frame dst ∧
        exec (codec.encode crc32c frame) dst =
          (.ok (48 + frame.payload.length), frame.sealed crc32c ++ dst.drop (48 + frame.payload.length)) ∨
      codec.config.maxFrameSize < 48 + frame.payload.length ∧
        (∃ e, e.code = some .frameTooLarge ∧ exec (codec.encode crc32c frame) dst = (.error (.err e), dst)) ∨
      48 + frame.payload.length ≤ codec.config.maxFrameSize ∧ dst.length < 48 + frame.payload.length ∧
        ∃ e, e.code = some .malformedFrame ∧ exec (codec.encode crc32c frame) dst = (.error (.err e), dst) := by
  have hlen : FIXED_HEADER_SIZE + frame.extensionBytes.length + frame.payload.length = 48 + frame.payload.length := by
    rw [bare]
    rfl
  have aligned : ¬ (FIXED_HEADER_SIZE + frame.extensionBytes.length) % 4 ≠ 0 := by
    rw [bare]
    decide
  by_cases large : FIXED_HEADER_SIZE + frame.extensionBytes.length + frame.payload.length > codec.config.maxFrameSize
  · have hexec : exec (codec.encode crc32c frame) dst = (.error (.err _), dst) :=
      (exec_else aligned).trans (exec_stop large)
    rw [hlen] at large
    exact Or.inr (Or.inl ⟨large, _, RtdpError.code_frameTooLarge _ _, hexec⟩)
  by_cases short : dst.length < FIXED_HEADER_SIZE + frame.extensionBytes.length + frame.payload.length
  · have hexec : exec (codec.encode crc32c frame) dst = (.error (.err _), dst) :=
      (exec_else aligned).trans ((exec_else large).trans
        ((exec_bind_ok (exec_get dst)).trans (exec_stop short)))
    rw [hlen] at large short
    exact Or.inr (Or.inr ⟨not_lt.mp large, short, _, RtdpError.code_malformed _, hexec⟩)
  · have encodable : codec.Encodable frame dst := ⟨not_not.mp aligned, not_lt.mp large, not_lt.mp short⟩
    have hexec := FrameCodec.exec_encode crc32c encodable
    rw [show frame.wireLength = 48 + frame.payload.length from hlen] at hexec
    exact Or.inl ⟨encodable, hexec⟩

/-- What is asked of the header and the payload so that the packet can be decoded again. -/
def RtdpHeader.Readable (h : RtdpHeader) (payload : List UInt8) : Prop :=
  h.magic = MAGIC_RTDP ∧ h.version = RTDP_VERSION_1 ∧ payload.length < 2 ^ 32 ∧
    ∀ t, MessageType.fromU16 h.messageType = .ok t → t.Schema payload

theorem frame_grammar_iff {h : RtdpHeader} {t : MessageType} {n : ℕ} {payload dst : List UInt8}
    (known : MessageType.fromU16 h.messageType = .ok t) (encodable : codec.Encodable (h.frame t n payload) dst) :
    Grammar crc32c codec.config ((h.frame t n payload).sealed crc32c) ↔ h.Readable payload := by
  have hraw : t.asU16 = h.messageType := MessageType.asU16_of_fromU16 known
  constructor
  · rintro ⟨w, tlvs, payload', t', frame⟩
    obtain ⟨rfl, -, rfl⟩ := FrameCodec.parts_of_sealed frame
    have hlen := frame.payload_length
    have hbound := ((h.frame t n payload).wireWords (crc32c ((h.frame t n payload).wireBytes 0))).payloadLength.toNat_lt
    refine ⟨frame.magic, frame.version, by rw [hlen] at hbound; exact hbound, fun t'' ht'' => ?_⟩
    have htype : MessageType.fromU16 t.asU16 = .ok t' := frame.message_type
    rw [hraw, ht''] at htype
    rw [Except.ok.inj htype]
    exact frame.schema
  · rintro ⟨magic, version, payload_fits, schema⟩
    exact ⟨_, [], _, _, FrameCodec.frameOf_sealed crc32c encodable magic version
      (show MessageType.fromU16 t.asU16 = .ok t by rw [hraw, known]) (by simp)
      (by rw [PrefixCode.stream_nil]; rfl) (Nat.zero_le _) payload_fits (schema t known)⟩

/-- What `rtdp_encode` returns and writes: 0 and a packet for a message of a known type that fits, the code
of the first check that fails and nothing for any other. -/
structure EncodeVerdict (crc32c : List UInt8 → UInt32) (codec : FrameCodec) (h : RtdpHeader)
    (payload outBuf : List UInt8) (outLen : ℕ) (code : Int) (buf : List UInt8) (len : ℕ) : Prop where
  accepted : code = 0 ↔ (∃ t, MessageType.fromU16 h.messageType = .ok t) ∧
    48 + payload.length ≤ codec.config.maxFrameSize ∧ 48 + payload.length ≤ outBuf.length
  written : code = 0 → len = 48 + payload.length ∧ ∃ packet, packet.length = len ∧
    buf = packet ++ outBuf.drop len ∧ (Grammar crc32c codec.config packet ↔ h.Readable payload)
  refused : code ≠ 0 → buf = outBuf ∧ len = outLen ∧
    ((∀ t, MessageType.fromU16 h.messageType ≠ .ok t) ∧ code = -4 ∨
      (∃ t, MessageType.fromU16 h.messageType = .ok t) ∧
        (codec.config.maxFrameSize < 48 + payload.length ∧ code = -10 ∨
          48 + payload.length ≤ codec.config.maxFrameSize ∧ outBuf.length < 48 + payload.length ∧ code = -2))

/-- **`rtdp_encode` checks** type, frame size and room, in this order, and no more: a packet it writes is
decoded again exactly if magic, version and payload are those of a readable message. It does not panic. -/
theorem rtdp_encode_verdict (crc32c : List UInt8 → UInt32) (codec : FrameCodec) (h : RtdpHeader)
    (payload : Option (List UInt8)) (payloadLen : ℕ) (outBuf : List UInt8) (outLen : ℕ) :
    ∃ code buf len,
      rtdpEncode crc32c (some codec) (some h) payload payloadLen (some outBuf) (some outLen) =
        some (code, some buf, some len) ∧
      EncodeVerdict crc32c codec h (payloadSlice payload payloadLen) outBuf outLen code buf len := by
  cases known : MessageType.fromU16 h.messageType with
  | error e =>
    have hcode : errorReturn (-4) e = -4 := by
      rw [errorReturn, MessageType.code_of_fromU16_error known]
      rfl
    have unknown : ∀ t, MessageType.fromU16 h.messageType ≠ .ok t := by
      rw [known]
      rintro t ⟨⟩
    refine ⟨-4, outBuf, outLen, ?_, ?_, fun hzero => absurd hzero (by decide), fun _ => ⟨rfl, rfl, Or.inl ⟨unknown, rfl⟩⟩⟩
    · unfold rtdpEncode
      simp only [known, hcode]
    · exact iff_of_false (by decide) fun ⟨⟨t, ht⟩, _⟩ => unknown t ht
  | ok t =>
    obtain ⟨bytes, hbytes⟩ : ∃ bytes, bytes = payloadSlice payload payloadLen := ⟨_, rfl⟩
    rw [← hbytes]
    rcases @exec_encode_bare crc32c codec (h.frame t payloadLen bytes) rfl outBuf with
      ⟨encodable, hexec⟩ | ⟨large, e, hcode, hexec⟩ | ⟨fits, short, e, hcode, hexec⟩
    · refine ⟨0, (h.frame t payloadLen bytes).sealed crc32c ++ outBuf.drop (48 + bytes.length), 48 + bytes.length,
        ?_, iff_of_true rfl ⟨⟨t, known⟩, encodable.fits, encodable.room⟩, fun _ => ⟨rfl, _, ?_, rfl, ?_⟩,
        fun hne => absurd rfl hne⟩
      · unfold rtdpEncode
        simp only [known, ← hbytes, hexec]
        rfl
      · exact OwnedFrame.wireBytes_length _ _
      · exact frame_grammar_iff known encodable
    · have large : codec.config.maxFrameSize < 48 + bytes.length := large
      have hreturn : errorReturn (-2) e = -10 := errorReturn_code hcode (-2)
      refine ⟨-10, outBuf, outLen, ?_, iff_of_false (by decide) fun ⟨_, fits, _⟩ => by omega,
        fun hzero => absurd hzero (by decide), fun _ => ⟨rfl, rfl, Or.inr ⟨⟨t, known⟩, Or.inl ⟨large, rfl⟩⟩⟩⟩
      unfold rtdpEncode
      simp only [known, ← hbytes, hexec, hreturn]
    · have short : outBuf.length < 48 + bytes.length := short
      have hreturn : errorReturn (-2) e = -2 := errorReturn_code hcode (-2)
      refine ⟨-2, outBuf, outLen, ?_, iff_of_false (by decide) fun ⟨_, _, room⟩ => by omega,
        fun hzero => absurd hzero (by decide), fun _ => ⟨rfl, rfl, Or.inr ⟨⟨t, known⟩, Or.inr ⟨fits, short, rfl⟩⟩⟩⟩
      unfold rtdpEncode
      simp only [known, ← hbytes, hexec, hreturn]

/-! ## Encoding what was decoded -/

/-- What a successful call has handed out, no pointer null. -/
theorem rtdpDecode_parts {out : DecodeOut} {h : RtdpHeader} {payload : List UInt8} {n : ℕ}
    (decoded : rtdpDecode crc32c (some codec) (some packet) out =
      some (0, some packet, ⟨some h, some payload, some n⟩)) :
    ∃ w tlvs messageType, FrameOf crc32c codec.config packet w tlvs payload messageType ∧
      h = .ofHeader (w.header messageType) ∧ n = payload.length := by
  rcases rtdpDecode_cases crc32c codec packet out with ⟨view, hexec, hcall⟩ | ⟨e, hexec, first, hcall⟩
  · rw [decoded] at hcall
    simp only [Option.some.injEq, Prod.mk.injEq, true_and, DecodeOut.write, DecodeOut.mk.injEq] at hcall
    obtain ⟨hheader, hpayload, hlen⟩ := hcall
    obtain ⟨w, tlvs, messageType, frame, heq, -⟩ := FrameCodec.frameOf_decoded hexec
    obtain ⟨_, -, rfl⟩ := Option.map_eq_some_iff.mp hheader.symm
    obtain ⟨_, -, rfl⟩ := Option.map_eq_some_iff.mp hpayload.symm
    obtain ⟨_, -, rfl⟩ := Option.map_eq_some_iff.mp hlen.symm
    exact ⟨w, tlvs, messageType, frame, congrArg RtdpHeader.ofHeader heq, rfl⟩
  · obtain ⟨-, r, -, -, -, -, c, hcode, -⟩ := id first
    rw [decoded] at hcall
    exact absurd (congrArg Prod.fst (Option.some.inj hcall)).symm (errorReturn_ne_zero hcode (-2))

/-- A header word that counts the payload. -/
theorem ofNat_payload_length {config : CodecConfig} {payload : List UInt8} {w : HeaderWords} {tlvs : List Tlv}
    {messageType : MessageType} (frame : FrameOf crc32c config packet w tlvs payload messageType) :
    UInt32.ofNat payload.length = w.payloadLength := by
  rw [← frame.payload_length, UInt32.ofNat_toNat]

/-- The frame `rtdp_encode` builds of what `rtdp_decode` has handed out: the one that was decoded, less
its extensions. -/
theorem frame_ofHeader {config : CodecConfig} {payload : List UInt8} {w : HeaderWords} {tlvs : List Tlv}
    {messageType : MessageType} (frame : FrameOf crc32c config packet w tlvs payload messageType) :
    (RtdpHeader.ofHeader (w.header messageType)).frame messageType payload.length payload =
      ⟨w.header messageType, [], payload⟩ := by
  simp only [RtdpHeader.frame, RtdpHeader.ofHeader, HeaderWords.header, ofNat_payload_length frame]

/-- A frame that was decoded, less its extensions. -/
def bareFrame (w : HeaderWords) (messageType : MessageType) (payload : List UInt8) : OwnedFrame where
  header := w.header messageType
  extensionBytes := []
  payload := payload

section Bare

variable {w : HeaderWords} {tlvs : List Tlv} {payload : List UInt8} {messageType : MessageType}

@[simp] theorem bareFrame_wireLength : (bareFrame w messageType payload).wireLength = 48 + payload.length := rfl

theorem bareFrame_length : ((bareFrame w messageType payload).sealed crc32c).length = 48 + payload.length :=
  OwnedFrame.wireBytes_length _ _

theorem bareFrame_encodable (grammar : FrameOf crc32c codec.config packet w tlvs payload messageType)
    {dst : List UInt8} (room : 48 + payload.length ≤ dst.length) :
    codec.Encodable (bareFrame w messageType payload) dst := by
  have hpacket := grammar.packet_length
  have hfits := grammar.frame_size
  refine ⟨by simp [bareFrame], ?_, room⟩
  rw [bareFrame_wireLength]
  omega

/-- It is a frame of the grammar. -/
theorem bareFrame_grammar (grammar : FrameOf crc32c codec.config packet w tlvs payload messageType) :
    FrameOf crc32c codec.config ((bareFrame w messageType payload).sealed crc32c)
      ((bareFrame w messageType payload).wireWords (crc32c ((bareFrame w messageType payload).wireBytes 0)))
      [] payload messageType := by
  have encodable : codec.Encodable (bareFrame w messageType payload) (List.replicate (48 + payload.length) 0) :=
    bareFrame_encodable grammar (by rw [List.length_replicate])
  have same : MessageType.fromU16 messageType.asU16 = .ok messageType := by
    rw [MessageType.asU16_of_fromU16 grammar.message_type]
    exact grammar.message_type
  have payload_fits : payload.length < 2 ^ 32 := by
    rw [← grammar.payload_length]
    exact w.payloadLength.toNat_lt
  exact FrameCodec.frameOf_sealed crc32c encodable grammar.magic grammar.version same (by simp)
    (by rw [PrefixCode.stream_nil]; rfl) (by simp [bareFrame]) payload_fits grammar.schema

/-- It is the packet that was decoded if that has no extensions. -/
theorem bareFrame_sealed_iff (validates : codec.config.validateChecksum = true)
    (grammar : FrameOf crc32c codec.config packet w tlvs payload messageType) :
    (bareFrame w messageType payload).sealed crc32c = packet ↔ w.headerLength = 48 := by
  have hpacket := grammar.packet_length
  have hheader := grammar.header_length
  rw [← UInt16.toNat_inj]
  constructor
  · intro heq
    have hlen := congrArg List.length heq
    rw [bareFrame_length] at hlen
    show w.headerLength.toNat = 48
    omega
  · intro heq
    have heq : w.headerLength.toNat = 48 := heq
    have hnone : tlvCode.stream tlvs = [] := List.eq_nil_of_length_eq_zero (by omega)
    have hsealed := FrameCodec.sealed_of_frameOf validates grammar
    rwa [hnone] at hsealed

/-- The header handed out for it. -/
theorem bareFrame_ofHeader (grammar : FrameOf crc32c codec.config packet w tlvs payload messageType) (c : UInt32) :
    RtdpHeader.ofHeader (((bareFrame w messageType payload).wireWords c).header messageType) =
      { RtdpHeader.ofHeader (w.header messageType) with headerLength := 48, checksum := c } := by
  simp only [RtdpHeader.ofHeader, HeaderWords.header, OwnedFrame.wireWords, FixedHeader.words, bareFrame,
    ofNat_payload_length grammar]
  rfl

end Bare

/-- **What was decoded can be encoded again**, from the header and the payload handed out: the packet
written is decoded to the same header and payload, but for header length and checksum. It is the packet
received exactly if that has no extensions. -/
theorem rtdp_reencode (crc32c : List UInt8 → UInt32) (codec : FrameCodec)
    (validates : codec.config.validateChecksum = true) (packet : List UInt8) (out : DecodeOut)
    (h : RtdpHeader) (payload : List UInt8) (n : ℕ)
    (decoded : rtdpDecode crc32c (some codec) (some packet) out =
      some (0, some packet, ⟨some h, some payload, some n⟩))
    (dst : List UInt8) (len : ℕ) (room : 48 + n ≤ dst.length) :
    ∃ packet' checksum, packet'.length = 48 + n ∧
      rtdpEncode crc32c (some codec) (some h) (some payload) n (some dst) (some len) =
        some (0, some (packet' ++ dst.drop (48 + n)), some (48 + n)) ∧
      rtdpDecode crc32c (some codec) (some packet') ⟨some h, some payload, some n⟩ =
        some (0, some packet', ⟨some { h with headerLength := 48, checksum }, some payload, some n⟩) ∧
      (packet' = packet ↔ h.headerLength = 48) := by
  obtain ⟨w, tlvs, messageType, grammar, rfl, rfl⟩ := rtdpDecode_parts decoded
  have encodable := bareFrame_encodable grammar room
  refine ⟨(bareFrame w messageType payload).sealed crc32c,
    crc32c ((bareFrame w messageType payload).wireBytes 0), bareFrame_length, ?_, ?_,
    bareFrame_sealed_iff validates grammar⟩
  · have htype : MessageType.fromU16 (RtdpHeader.ofHeader (w.header messageType)).messageType =
        .ok messageType := by
      show MessageType.fromU16 messageType.asU16 = .ok messageType
      rw [MessageType.asU16_of_fromU16 grammar.message_type]
      exact grammar.message_type
    have hslice : payloadSlice (some payload) payload.length = payload := by
      rw [payloadSlice]
      split
      · rename_i hempty
        exact (List.eq_nil_of_length_eq_zero hempty).symm
      · exact List.take_length
    have hframe := frame_ofHeader grammar
    unfold rtdpEncode
    simp only [htype, hslice, hframe]
    rw [show (⟨w.header messageType, [], payload⟩ : OwnedFrame) = bareFrame w messageType payload from rfl,
      FrameCodec.exec_encode crc32c encodable]
    rfl
  · have hdecode := @FrameCodec.exec_decode crc32c codec _ _ _ _ _ (bareFrame_grammar grammar)
    simp only [rtdpDecode, hdecode, DecodeOut.write, Option.map_some]
    rw [bareFrame_ofHeader grammar]

/-- A packet with one extension: the packet written anew is 8 bytes shorter. -/
theorem rtdp_reencode_padded :
    ∃ (packet' : List UInt8) (h : RtdpHeader) (checksum : UInt32), packet'.length = 50 ∧
      rtdpEncode Rtdp.crc32c (some FrameCodec.withDefaultConfig) (some h) (some [0x48, 0x49]) 2
          (some (List.replicate 60 0)) (some 0) =
        some (0, some (packet' ++ (List.replicate 60 0).drop 50), some 50) ∧
      rtdpDecode Rtdp.crc32c (some FrameCodec.withDefaultConfig) (some packet')
          ⟨some h, some [0x48, 0x49], some 2⟩ =
        some (0, some packet', ⟨some { h with headerLength := 48, checksum }, some [0x48, 0x49], some 2⟩) ∧
      packet' ≠ FrameCodec.paddedPacket := by
  obtain ⟨h, hh⟩ : ∃ h, h = RtdpHeader.ofHeader FrameCodec.paddedFrame.header := ⟨_, rfl⟩
  have decoded : rtdpDecode Rtdp.crc32c (some FrameCodec.withDefaultConfig)
      (some FrameCodec.paddedPacket) ⟨some h, some [], some 0⟩ =
        some (0, some FrameCodec.paddedPacket, ⟨some h, some [0x48, 0x49], some 2⟩) := by
    rw [hh]
    decide +kernel
  obtain ⟨packet', checksum, hlen, hencode, hdecode, hiff⟩ :=
    rtdp_reencode Rtdp.crc32c FrameCodec.withDefaultConfig rfl FrameCodec.paddedPacket
      ⟨some h, some [], some 0⟩ h [0x48, 0x49] 2 decoded (List.replicate 60 0) 0 (by decide)
  refine ⟨packet', h, checksum, hlen, hencode, hdecode, fun heq => ?_⟩
  have hheader := hiff.mp heq
  rw [hh] at hheader
  exact absurd hheader (by decide)

end Rtdp
