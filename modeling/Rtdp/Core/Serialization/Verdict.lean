import Rtdp.Core.Serialization.Grammar

/-!
# The decoder's verdict

Each step of `decode` is the verdict on the rules it checks, and leaves the
packet as it was; composed, `decode` is the verdict on all of them. What it
returns is the view of the packet.
-/

namespace Rtdp
open BigEndian BufferM RuleBook

variable {crc32c : List UInt8 → UInt32} {config : CodecConfig} {packet : List UInt8}

/-- What `decode` returns of a packet it accepts with message type `t`. -/
def viewOf (packet : List UInt8) (t : MessageType) : FrameView where
  header := (HeaderWords.ofBytes packet).header t
  extensionBytes := extensionArea packet
  payload := payloadArea packet

namespace FrameCodec

/-! ## Lengths, magic and version -/

theorem checkPrefix_judges (self : FrameCodec) (packet : List UInt8) :
    (rules crc32c self.config packet).Judges [.length, .frameSize, .magic, .version] (fun _ => True)
      (self.checkPrefix packet) := by
  unfold checkPrefix
  refine Judges.check (by simp [rules, Rule.Holds, FIXED_HEADER_SIZE])
    (fun _ => ⟨_, RtdpError.code_malformed _, rfl⟩) fun h => ?_
  have length : 48 ≤ packet.length := Nat.le_of_not_lt h
  refine Judges.check (by simp [rules, Rule.Holds]) (fun _ => ⟨_, RtdpError.code_frameTooLarge _ _, rfl⟩) fun _ => ?_
  rw [slice_eq (by omega) (by omega), byteAt_eq (by omega)]
  refine Judges.check ?_ (fun _ => ⟨_, RtdpError.code_malformed _, rfl⟩) fun _ => ?_
  · simp [rules, Rule.Holds, HeaderWords.ofBytes]
  · refine Judges.check ?_ (fun _ => ⟨_, RtdpError.code_versionMismatch _, rfl⟩) fun _ => Judges.pass trivial
    simp [rules, Rule.Holds, HeaderWords.ofBytes, show 2 < packet.length by omega]

theorem checkHeaderLength_judges (length : 48 ≤ packet.length) :
    (rules crc32c config packet).Judges [.headerLength] (· = headerLengthOf packet)
      (checkHeaderLength packet) := by
  unfold checkHeaderLength
  rw [slice_eq (by omega) (by omega)]
  refine Judges.guard (fun h holds => Nat.not_le.2 h holds.1)
    (fun _ => ⟨_, RtdpError.code_malformed _, rfl⟩) fun minimum => ?_
  refine Judges.guard (fun h holds => h holds.2.1)
    (fun _ => ⟨_, RtdpError.code_malformed _, rfl⟩) fun aligned => ?_
  refine Judges.guard (fun h holds => Nat.not_le.2 h holds.2.2)
    (fun _ => ⟨_, RtdpError.code_malformed _, rfl⟩) fun maximum => ?_
  exact Judges.ok ⟨Nat.le_of_not_lt minimum, not_not.1 aligned, Nat.le_of_not_lt maximum⟩ rfl

theorem checkPayloadLength_judges (length : 48 ≤ packet.length) :
    (rules crc32c config packet).Judges [.payloadLength]
      (· = (payloadArea packet).length)
      (checkPayloadLength packet (headerLengthOf packet)) := by
  unfold checkPayloadLength
  rw [slice_eq (by omega) (by omega)]
  refine Judges.guard (fun h holds => h holds) (fun _ => ⟨_, RtdpError.code_malformed _, rfl⟩) fun h => ?_
  have total := not_not.1 h
  refine Judges.ok total ?_
  rw [payloadArea, List.length_drop]
  exact Nat.eq_sub_of_add_eq' total

/-! ## The TLV loop -/

theorem walkExtensions_done {iter : ExtensionIterator} (h : iter.data.length ≤ iter.offset) :
    walkExtensions iter = .ok () := by
  rw [walkExtensions]
  split <;> simp_all [ExtensionIterator.next_done h]

/-- At a record the loop stops or goes on behind it. -/
theorem walkExtensions_tlv {iter : ExtensionIterator} {t : Tlv} {rest : List UInt8}
    (h : iter.data.drop iter.offset = t.bytes ++ rest) :
    walkExtensions iter =
      if t.isCritical && !isKnownExtension t.extType then
        .error (.err (.unsupportedExtension t.extType))
      else walkExtensions { iter with offset := iter.offset + t.bytes.length } := by
  have hn := ExtensionIterator.next_tlv h
  rw [walkExtensions]
  split
  case h_4 ext iter' hnext =>
    rw [hn] at hnext
    cases hnext
    rfl
  all_goals simp_all

theorem walkExtensions_malformed {iter : ExtensionIterator} (inside : iter.offset < iter.data.length)
    (h : ∀ (t : Tlv) rest, iter.data.drop iter.offset ≠ t.bytes ++ rest) :
    ∃ detail, walkExtensions iter = .error (.err (.malformed detail)) := by
  obtain ⟨detail, hn⟩ := ExtensionIterator.next_malformed inside h
  refine ⟨detail, ?_⟩
  rw [walkExtensions]
  split <;> simp_all

/-- The records the decoder does not skip are the critical ones. -/
theorem skipped_iff (t : Tlv) : (t.isCritical && !isKnownExtension t.extType) = false ↔ t.Skippable := by
  have known := isKnownExtension_not_critical (t := t.extType)
  unfold Tlv.Skippable Tlv.isCritical
  cases hk : isKnownExtension t.extType <;> simp_all

/-- The loop's verdict on the records that are left. -/
theorem walkExtensions_verdict (iter : ExtensionIterator) :
    (walkExtensions iter = .ok () ∧ tlvCode.Tiled Tlv.Skippable (iter.data.drop iter.offset)) ∨
      ∃ e c, walkExtensions iter = .error (.err e) ∧ e.code = some c ∧
        OffendingTlv (iter.data.drop iter.offset) c := by
  rcases iter.next_cases with ⟨hend, -⟩ | ⟨t, rest, ht, -⟩ | ⟨inside, hnone, -⟩
  · rw [List.drop_of_length_le hend]
    exact .inl ⟨walkExtensions_done hend, .nil⟩
  · rw [walkExtensions_tlv ht, ht]
    by_cases hskip : t.Skippable
    · have behind : iter.data.drop (iter.offset + t.bytes.length) = rest := by
        rw [← List.drop_drop, ht, List.drop_left]
      rw [(skipped_iff t).2 hskip]
      have ih := walkExtensions_verdict { iter with offset := iter.offset + t.bytes.length }
      simp only [behind] at ih
      rcases ih with ⟨hok, tiled⟩ | ⟨e, c, herr, hc, offends⟩
      · exact .inl ⟨hok, .cons hskip tiled⟩
      · exact .inr ⟨e, c, herr, hc, offends.cons hskip⟩
    · have stops : (t.isCritical && !isKnownExtension t.extType) = true := by
        rw [← Bool.not_eq_false, skipped_iff]
        exact hskip
      rw [if_pos stops]
      exact .inr ⟨_, _, rfl, RtdpError.code_unsupportedExtension _, .critical hskip⟩
  · obtain ⟨detail, herr⟩ := walkExtensions_malformed inside hnone
    refine .inr ⟨_, _, herr, RtdpError.code_malformed _, .malformed ?_ hnone⟩
    simpa using inside
termination_by iter.data.length - iter.offset
decreasing_by
  have := t.bytes_length
  have := congrArg List.length ht
  simp at this ⊢
  omega

theorem extensionArea_of_short (h : headerLengthOf packet ≤ 48) : extensionArea packet = [] := by
  rw [extensionArea, Nat.sub_eq_zero_of_le h, List.take_zero]

theorem checkExtensions_judges (inside : headerLengthOf packet ≤ packet.length) :
    (rules crc32c config packet).Judges [.extensions] (fun _ => True)
      (checkExtensions packet (headerLengthOf packet)) := by
  unfold checkExtensions FIXED_HEADER_SIZE
  by_cases h : headerLengthOf packet > 48
  · rw [if_pos h, slice_eq (by omega) inside]
    change Judges _ _ _ (walkExtensions (.new (extensionArea packet)))
    rcases walkExtensions_verdict (.new (extensionArea packet)) with ⟨hok, tiled⟩ | ⟨e, c, herr, hc, offends⟩
    · rw [hok]
      exact Judges.ok tiled trivial
    · rw [herr]
      exact Judges.broken offends.not_tiled ⟨c, hc, offends⟩
  · rw [if_neg h]
    refine Judges.ok ?_ trivial
    change tlvCode.Tiled Tlv.Skippable (extensionArea packet)
    rw [extensionArea_of_short (by omega)]
    exact .nil

/-! ## The checksum -/

/-- The checksum check leaves the packet as it was. -/
theorem exec_checkChecksum (self : FrameCodec) (length : 48 ≤ packet.length) :
    exec (self.checkChecksum crc32c) packet =
      (if self.config.validateChecksum = true ∧
          crc32c (checksumZeroed packet) ≠ (HeaderWords.ofBytes packet).checksum then
        .error (.err (.checksumFailed (HeaderWords.ofBytes packet).checksum
          (crc32c (checksumZeroed packet))))
      else .ok (), packet) := by
  have zeroed : exec (store 44 48 (writeU32 0) : BufferM RtdpError Unit) packet =
      (.ok (), checksumZeroed packet) := exec_store (by omega) length rfl
  have restored : exec (store 44 48 (writeU32 (HeaderWords.ofBytes packet).checksum) :
      BufferM RtdpError Unit) (checksumZeroed packet) = (.ok (), packet) := by
    have field : writeU32 (HeaderWords.ofBytes packet).checksum = (packet.drop 44).take 4 :=
      writeU32_readU32 (by simp; omega)
    have same_length : (checksumZeroed packet).length = packet.length :=
      length_patch (by omega) length rfl
    rw [exec_store (by omega) (by omega) (by simp), checksumZeroed,
      patch_patch (by omega) length rfl, field, patch_self (by omega)]
  unfold checkChecksum
  rw [exec_bind_ok (exec_get packet), slice_eq (by omega) length, exec_bind_ok (exec_lift _ _)]
  change exec (if self.config.validateChecksum then _ else _) packet = _
  by_cases hv : self.config.validateChecksum = true
  · rw [if_pos hv, exec_bind_ok zeroed, exec_bind_ok (exec_get _)]
    refine (exec_bind_ok restored).trans ?_
    change exec (if crc32c (checksumZeroed packet) ≠ (HeaderWords.ofBytes packet).checksum then
      throw _ else pure ()) packet = _
    simp only [hv, true_and]
    split_ifs <;> rfl
  · rw [if_neg hv, if_neg fun h => hv h.1]
    rfl

theorem checkChecksum_judges (self : FrameCodec) (length : 48 ≤ packet.length) :
    (rules crc32c self.config packet).JudgesOn packet [.checksum] (fun _ => True)
      (self.checkChecksum crc32c) := by
  refine ⟨_, exec_checkChecksum self length, ?_⟩
  split_ifs with h
  · exact Judges.broken (fun holds => h.2 (holds h.1)) ⟨_, RtdpError.code_checksumFailed _ _, rfl⟩
  · refine Judges.ok (fun validate => ?_) trivial
    by_contra hne
    exact h ⟨validate, hne⟩

/-! ## Message type and schema -/

/-- Behind the earlier rules, decoding the header decides the message type. -/
theorem decodeHeader_judges (length : 48 ≤ packet.length)
    (magic : (HeaderWords.ofBytes packet).magic = MAGIC_RTDP)
    (version : (HeaderWords.ofBytes packet).version = RTDP_VERSION_1) :
    (rules crc32c config packet).Judges [.messageType]
      (fun header => ∃ t, MessageType.fromU16 (HeaderWords.ofBytes packet).rawMsgType = .ok t ∧
        header = (HeaderWords.ofBytes packet).header t)
      (FixedHeader.decode (packet.take 48)) := by
  have same : HeaderWords.ofBytes (packet.take 48) = HeaderWords.ofBytes packet := by
    rw [← HeaderWords.bytes_ofBytes length]
    simpa using HeaderWords.ofBytes_bytes (HeaderWords.ofBytes packet) []
  rw [FixedHeader.decode_eq (by simp; omega) (by rw [same, magic]) (by rw [same, version]), same]
  cases ht : MessageType.fromU16 (HeaderWords.ofBytes packet).rawMsgType with
  | ok t => exact Judges.ok ⟨t, ht⟩ ⟨t, rfl, rfl⟩
  | error e =>
    refine Judges.broken ?_ ⟨_, MessageType.code_of_fromU16_error ht, rfl⟩
    rintro ⟨t, ht'⟩
    rw [ht] at ht'
    cases ht'

theorem schema_holds_iff (crc32c : List UInt8 → UInt32) (config : CodecConfig) {t : MessageType}
    (ht : MessageType.fromU16 (HeaderWords.ofBytes packet).rawMsgType = .ok t) :
    (rules crc32c config packet).Holds .schema ↔ t.Schema (payloadArea packet) := by
  constructor
  · intro h
    exact h t ht
  · rintro h t' ht'
    rw [ht] at ht'
    cases ht'
    exact h

/-- A schema error is reported by the code of its message type. -/
theorem reports_schema {t : MessageType}
    (ht : MessageType.fromU16 (HeaderWords.ofBytes packet).rawMsgType = .ok t) {e : RtdpError}
    (h : e.code = some (t.schemaCode (payloadArea packet))) :
    (rules crc32c config packet).Reports .schema e :=
  ⟨_, h, t, ht, rfl⟩

theorem slice_payload (i n : Nat) (h : headerLengthOf packet + i + n ≤ packet.length) :
    slice (ε := RtdpError) packet (headerLengthOf packet + i) (headerLengthOf packet + (i + n)) =
      .ok (((payloadArea packet).drop i).take n) := by
  rw [slice_eq (by omega) (by omega), payloadArea, List.drop_drop]
  congr 2
  omega

theorem checkPayload_judges {t : MessageType}
    (ht : MessageType.fromU16 (HeaderWords.ofBytes packet).rawMsgType = .ok t)
    (inside : headerLengthOf packet ≤ packet.length) :
    (rules crc32c config packet).Judges [.schema] (fun _ => True)
      (checkPayload packet t (headerLengthOf packet) (payloadArea packet).length) := by
  have schema := schema_holds_iff crc32c config ht
  have area : (payloadArea packet).length = packet.length - headerLengthOf packet := List.length_drop
  cases t with
  | heartbeat =>
    refine Judges.check ?_ (fun _ => reports_schema ht rfl) fun _ => Judges.pass trivial
    rw [schema]
    simp [MessageType.Schema]
  | replayRequest =>
    refine Judges.guard (fun h holds => h (schema.1 holds).1)
      (fun h => reports_schema ht (congrArg some (if_neg h).symm)) fun h => ?_
    have exact24 := not_not.1 h
    rw [slice_payload 8 8 (by omega), slice_payload 16 8 (by omega)]
    refine Judges.check ?_ (fun _ => reports_schema ht (congrArg some (if_pos exact24).symm)) fun _ => Judges.pass trivial
    rw [schema]
    simp [MessageType.Schema, exact24]
  | replayUnavailable =>
    refine Judges.check ?_ (fun _ => reports_schema ht rfl) fun _ => Judges.pass trivial
    rw [schema]
    simp [MessageType.Schema]
  | replayResponse =>
    refine Judges.check ?_ (fun _ => reports_schema ht rfl) fun _ => Judges.pass trivial
    rw [schema]
    simp [MessageType.Schema]
  | _ => exact Judges.ok (schema.2 trivial) trivial

/-! ## The whole decoder -/

/-- `decode` is the verdict on the rules in their order, leaves the packet as it
was, and returns the packet's view. -/
theorem decode_judges (crc32c : List UInt8 → UInt32) (self : FrameCodec) (packet : List UInt8) :
    (rules crc32c self.config packet).JudgesOn packet precedence
      (fun view => ∃ t, MessageType.fromU16 (HeaderWords.ofBytes packet).rawMsgType = .ok t ∧
        view = viewOf packet t)
      (self.decode crc32c) := by
  unfold decode
  refine JudgesOn.get_bind ?_
  refine JudgesOn.bind (.lift (self.checkPrefix_judges packet)) fun _ prefix_holds _ => ?_
  have length : 48 ≤ packet.length := prefix_holds .length (by simp)
  have magic : (HeaderWords.ofBytes packet).magic = MAGIC_RTDP := prefix_holds .magic (by simp)
  have version : (HeaderWords.ofBytes packet).version = RTDP_VERSION_1 := prefix_holds .version (by simp)
  refine JudgesOn.bind (.lift (checkHeaderLength_judges length)) fun _ header_holds hl => ?_
  obtain ⟨minimum, -, inside⟩ := header_holds .headerLength (by simp)
  subst hl
  refine JudgesOn.bind (.lift (checkPayloadLength_judges length)) fun _ _ pl => ?_
  subst pl
  refine JudgesOn.bind (.lift (checkExtensions_judges inside)) fun _ _ _ => ?_
  refine JudgesOn.bind (self.checkChecksum_judges length) fun _ _ _ => ?_
  refine JudgesOn.get_bind ?_
  have front : slice (ε := RtdpError) packet 0 FIXED_HEADER_SIZE = .ok (packet.take 48) :=
    slice_eq (by omega) length
  have middle : slice (ε := RtdpError) packet FIXED_HEADER_SIZE (headerLengthOf packet) =
      .ok (extensionArea packet) := slice_eq minimum inside
  have back : slice (ε := RtdpError) packet (headerLengthOf packet) packet.length =
      .ok (payloadArea packet) := by
    rw [slice_eq inside le_rfl, List.take_of_length_le (by simp)]
    rfl
  rw [front, middle, back]
  refine JudgesOn.ok_bind ?_
  refine JudgesOn.bind (.lift (decodeHeader_judges length magic version)) fun _ _ header => ?_
  obtain ⟨t, ht, rfl⟩ := header
  refine JudgesOn.bind (.lift (checkPayload_judges ht inside)) fun _ _ _ => ?_
  refine JudgesOn.ok_bind (JudgesOn.ok_bind (JudgesOn.pass ?_))
  exact ⟨t, ht, rfl⟩

/-- `decode` accepts exactly the grammar. It never panics, and the error it
returns is that of the first violated rule. -/
theorem decode_grammar (crc32c : List UInt8 → UInt32) (self : FrameCodec) (packet : List UInt8) :
    ((∃ view, (exec (self.decode crc32c) packet).1 = .ok view) ↔ Grammar crc32c self.config packet) ∧
      ∀ fault, (exec (self.decode crc32c) packet).1 = .error fault →
        ∃ e, fault = .err e ∧ (rules crc32c self.config packet).FirstViolated precedence e ∧
          ∀ e', (rules crc32c self.config packet).FirstViolated precedence e' → e'.code = e.code := by
  obtain ⟨out, hexec, judged⟩ := self.decode_judges crc32c packet
  rw [hexec]
  refine ⟨judged.ok_iff.trans (holds_iff_grammar crc32c self.config packet), fun fault failed => ?_⟩
  obtain ⟨e, rfl, first⟩ := judged.error failed
  exact ⟨e, rfl, first, fun e' first' => firstViolated_code_unique first' first⟩

/-- A heartbeat of stream 42 as it stands on the wire. -/
def heartbeatPacket : List UInt8 :=
  [0x52, 0x54, 0x01, 0x00, 0x00, 0x02, 0x00, 0x30,
    0x00, 0x00, 0x00, 0x00, 0x00, 0x00, 0x00, 0x2a,
    0x00, 0x00, 0x00, 0x00, 0x00, 0x00, 0x00, 0x00,
    0x17, 0x97, 0x9c, 0xfe, 0x36, 0x2a, 0x00, 0x00,
    0x00, 0x00, 0x00, 0x00, 0x00, 0x00, 0x03, 0xe9,
    0x00, 0x00, 0x00, 0x00, 0xf8, 0xfb, 0x0a, 0x34]

theorem decode_grammar_heartbeat :
    Grammar Rtdp.crc32c {} heartbeatPacket ∧
      ∃ e, (rules Rtdp.crc32c {} (heartbeatPacket.set 47 0)).FirstViolated precedence e ∧
        e.code = some .checksumFailed := by
  have accepted : (exec (withDefaultConfig.decode Rtdp.crc32c) heartbeatPacket).1 =
      .ok ⟨{ FixedHeader.newData 42 0 1700000000000000000 1001 0 48 with
        messageType := .heartbeat
        checksum := 0xf8fb0a34 }, [], []⟩ := by decide +kernel
  refine ⟨(decode_grammar Rtdp.crc32c withDefaultConfig heartbeatPacket).1.1 ⟨_, accepted⟩, ?_⟩
  obtain ⟨e, he, first, -⟩ :=
    (decode_grammar Rtdp.crc32c withDefaultConfig (heartbeatPacket.set 47 0)).2
      (.err (.checksumFailed 0xf8fb0a00 0xf8fb0a34)) (by decide +kernel)
  cases he
  exact ⟨_, first, rfl⟩

end FrameCodec

end Rtdp
