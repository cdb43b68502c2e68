import Rtdp.Core.Error
import Rtdp.Lib.BigEndian
import Rtdp.Lib.PrefixCode

/-!
# Header extensions (`core/src/protocol/extensions.rs`)

The bytes between the fixed header and the payload are TLV records: type,
length, value, and padding to a multiple of four bytes. `ExtensionIterator`
walks them. `Tlv` is one record as it stands on the wire, padding bytes
included; records form a prefix code, so an area is read in at most one way.
-/

namespace Rtdp
open BigEndian

def CRITICAL_EXTENSION_BIT : UInt16 := 0x8000

/-- `(n + 3) & !3`: round up to a multiple of four. -/
def paddedLen (n : Nat) : Nat := (n + 3) / 4 * 4

theorem le_paddedLen (n : Nat) : n ≤ paddedLen n := by unfold paddedLen; omega

structure HeaderExtension where
  extType : UInt16
  isCritical : Bool
  value : List UInt8
  deriving DecidableEq, Repr

namespace HeaderExtension

def new (extType : UInt16) (value : List UInt8) : HeaderExtension where
  extType := extType
  isCritical := extType &&& CRITICAL_EXTENSION_BIT != 0
  value := value

/-- Padded byte length including the 4-byte TLV header. -/
def wireLen (self : HeaderExtension) : Nat := 4 + paddedLen self.value.length

open BufferM in
def encode (self : HeaderExtension) : BufferM RtdpError Nat := do
  let wireLen := self.wireLen
  let dst ← get
  if dst.length < wireLen then
    throw (.err (.malformed "Buffer too short for extension TLV"))
  store 0 2 (writeU16 self.extType)
  store 2 4 (writeU16 (UInt16.ofNat self.value.length))
  store 4 (4 + self.value.length) self.value
  store (4 + self.value.length) wireLen (List.replicate (wireLen - (4 + self.value.length)) 0)
  return wireLen

end HeaderExtension

structure ExtensionIterator where
  data : List UInt8
  offset : Nat
  deriving DecidableEq, Repr

namespace ExtensionIterator

def new (data : List UInt8) : ExtensionIterator := ⟨data, 0⟩

def next (self : ExtensionIterator) : Call (Option (Result HeaderExtension) × ExtensionIterator) := do
  if self.offset ≥ self.data.length then
    return (none, self)
  let remaining ← slice self.data self.offset self.data.length
  if remaining.length < 4 then
    return (some (.error (.malformed
      "Truncated extension TLV header (less than 4 bytes remaining)")), self)
  let extType := readU16 (← slice remaining 0 2)
  let valLen := (readU16 (← slice remaining 2 4)).toNat
  let paddedValLen := paddedLen valLen
  let totalTlvLen := 4 + paddedValLen
  if remaining.length < totalTlvLen then
    return (some (.error (.malformed
      s!"Extension TLV requires {totalTlvLen} bytes, but only {remaining.length} remaining")), self)
  let isCritical := extType &&& CRITICAL_EXTENSION_BIT != 0
  let value ← slice remaining 4 (4 + valLen)
  return (some (.ok { extType, isCritical, value }), { self with offset := self.offset + totalTlvLen })

end ExtensionIterator

/-- Known standard extensions: `SOURCE_INGRESS_TS` and `CORRELATION_ID`. -/
def isKnownExtension (extType : UInt16) : Bool := extType == 0x0001 || extType == 0x0002

/-- No known extension is critical. -/
theorem isKnownExtension_not_critical {t : UInt16} (h : isKnownExtension t = true) :
    (t &&& CRITICAL_EXTENSION_BIT != 0) = false := by
  simp only [isKnownExtension, Bool.or_eq_true, beq_iff_eq] at h
  rcases h with rfl | rfl <;> decide

/-! ## Records on the wire -/

/-- One record as it stands in the extension area. -/
structure Tlv where
  extType : UInt16
  value : List UInt8
  padding : List UInt8
  value_fits : value.length < 2 ^ 16
  padding_length : padding.length = paddedLen value.length - value.length

namespace Tlv

def bytes (t : Tlv) : List UInt8 :=
  writeU16 t.extType ++ writeU16 (UInt16.ofNat t.value.length) ++ t.value ++ t.padding

def isCritical (t : Tlv) : Bool := t.extType &&& CRITICAL_EXTENSION_BIT != 0

/-- What a receiver sees of the record. -/
def extension (t : Tlv) : HeaderExtension := ⟨t.extType, t.isCritical, t.value⟩

theorem bytes_length (t : Tlv) : t.bytes.length = 4 + paddedLen t.value.length := by
  have := le_paddedLen t.value.length
  simp only [bytes, List.length_append, writeU16_length, t.padding_length]
  omega

theorem take_two (t : Tlv) (rest : List UInt8) :
    (t.bytes ++ rest).take 2 = writeU16 t.extType := by
  simp only [bytes, List.append_assoc]
  rw [List.take_append_of_le_length (by simp), List.take_of_length_le (by simp)]

theorem length_field (t : Tlv) (rest : List UInt8) :
    ((t.bytes ++ rest).drop 2).take 2 = writeU16 (UInt16.ofNat t.value.length) := by
  simp only [bytes, List.append_assoc]
  rw [List.drop_append_of_le_length (by simp), List.drop_of_length_le (by simp), List.nil_append,
    List.take_append_of_le_length (by simp), List.take_of_length_le (by simp)]

theorem readU16_length_field (t : Tlv) (rest : List UInt8) :
    (readU16 (((t.bytes ++ rest).drop 2).take 2)).toNat = t.value.length := by
  rw [length_field, readU16_writeU16, UInt16.toNat_ofNat_of_lt' t.value_fits]

theorem value_field (t : Tlv) (rest : List UInt8) :
    ((t.bytes ++ rest).drop 4).take t.value.length = t.value := by
  have front : (writeU16 t.extType ++ writeU16 (UInt16.ofNat t.value.length)).length = 4 := by simp
  simp only [bytes]
  rw [List.append_assoc, List.append_assoc, ← front, List.drop_left, List.take_left]

/-- An area starts with at most one record. -/
theorem bytes_unique {t t' : Tlv} {rest rest' : List UInt8}
    (h : t.bytes ++ rest = t'.bytes ++ rest') : t = t' ∧ rest = rest' := by
  have htype : t.extType = t'.extType := by
    have := congrArg (fun l => readU16 (l.take 2)) h
    simpa only [take_two, readU16_writeU16] using this
  have hlen : t.value.length = t'.value.length := by
    have := congrArg (fun l => (readU16 ((l.drop 2).take 2)).toNat) h
    simpa only [readU16_length_field] using this
  have hvalue : t.value = t'.value := by
    have := congrArg (fun l => (l.drop 4).take t.value.length) h
    simp only [value_field] at this
    rwa [hlen, value_field] at this
  have hbytes := List.append_inj h (by rw [bytes_length, bytes_length, hlen])
  refine ⟨?_, hbytes.2⟩
  have hpadding : t.padding = t'.padding := by
    have := hbytes.1
    simp only [bytes, htype, hvalue] at this
    exact List.append_cancel_left this
  cases t
  cases t'
  simp_all

end Tlv

/-- Extension areas are streams over this code. -/
def tlvCode : PrefixCode Tlv UInt8 where
  word := Tlv.bytes
  nonempty t h := by
    have := t.bytes_length
    rw [h] at this
    simp at this
    omega
  unique := Tlv.bytes_unique

theorem four_dvd_stream (tlvs : List Tlv) : (tlvCode.stream tlvs).length % 4 = 0 := by
  induction tlvs with
  | nil => rfl
  | cons t tlvs ih =>
    have head : (tlvCode.word t).length = 4 + paddedLen t.value.length := t.bytes_length
    have aligned : paddedLen t.value.length % 4 = 0 := Nat.mul_mod_left _ 4
    rw [PrefixCode.stream_cons, List.length_append, head]
    omega

/-- Each record takes at least four bytes. -/
theorem length_le_stream (ts : List Tlv) : 4 * ts.length ≤ (tlvCode.stream ts).length := by
  induction ts with
  | nil => simp
  | cons t ts ih =>
    have ht : (tlvCode.word t).length = 4 + paddedLen t.value.length := t.bytes_length
    rw [PrefixCode.stream_cons, List.length_append, List.length_cons, ht]
    omega

/-- An area at least as long as its first record claims to be starts with a record. -/
theorem exists_tlv {area : List UInt8} (header : 4 ≤ area.length)
    (fits : 4 + paddedLen (readU16 ((area.drop 2).take 2)).toNat ≤ area.length) :
    ∃ (t : Tlv) (rest : List UInt8), area = t.bytes ++ rest := by
  obtain ⟨n, hn⟩ : ∃ n, n = (readU16 ((area.drop 2).take 2)).toNat := ⟨_, rfl⟩
  rw [← hn] at fits
  have hle := le_paddedLen n
  have hn16 : n < 2 ^ 16 := hn ▸ UInt16.toNat_lt _
  have hvalue : ((area.drop 4).take n).length = n := by simp; omega
  let t : Tlv :=
    { extType := readU16 (area.take 2)
      value := (area.drop 4).take n
      padding := ((area.drop 4).drop n).take (paddedLen n - n)
      value_fits := by rw [hvalue]; exact hn16
      padding_length := by simp [hvalue]; omega }
  refine ⟨t, (area.drop 4).drop (paddedLen n), ?_⟩
  have htype : writeU16 (readU16 (area.take 2)) = area.take 2 :=
    writeU16_readU16 (by simp; omega)
  have hlen : writeU16 (UInt16.ofNat n) = (area.drop 2).take 2 := by
    rw [hn, UInt16.ofNat_toNat, writeU16_readU16 (by simp; omega)]
  have hpad : ((area.drop 4).drop n).take (paddedLen n - n) ++ (area.drop 4).drop (paddedLen n) =
      (area.drop 4).drop n := by
    rw [show paddedLen n = n + (paddedLen n - n) by omega, ← List.drop_drop,
      show n + (paddedLen n - n) - n = paddedLen n - n by omega, List.take_append_drop]
  simp only [Tlv.bytes, t, hvalue, htype, hlen, List.append_assoc]
  rw [hpad, List.take_append_drop, show area.drop 4 = (area.drop 2).drop 2 by simp,
    List.take_append_drop, List.take_append_drop]

/-! ## What one call of `next` does -/

namespace ExtensionIterator

variable {it it' : ExtensionIterator}

theorem next_done (h : it.data.length ≤ it.offset) : it.next = .ok (none, it) := by
  unfold next
  rw [if_pos h]
  rfl

/-- At a record, `next` yields it and moves past it. -/
theorem next_tlv {t : Tlv} {rest : List UInt8} (h : it.data.drop it.offset = t.bytes ++ rest) :
    it.next = .ok (some (.ok t.extension), { it with offset := it.offset + t.bytes.length }) := by
  have hlen : it.data.length - it.offset = t.bytes.length + rest.length := by
    simpa using congrArg List.length h
  have hbytes := t.bytes_length
  have hle := le_paddedLen t.value.length
  have hrem : slice (ε := RtdpError) it.data it.offset it.data.length = .ok (t.bytes ++ rest) := by
    rw [slice_eq (by omega) le_rfl, List.take_of_length_le (by simp), h]
  have htype : slice (ε := RtdpError) (t.bytes ++ rest) 0 2 = .ok (writeU16 t.extType) := by
    rw [slice_eq (by omega) (by simp; omega), List.drop_zero]
    exact congrArg _ (t.take_two rest)
  have hlenf : slice (ε := RtdpError) (t.bytes ++ rest) 2 4 =
      .ok (writeU16 (UInt16.ofNat t.value.length)) := by
    rw [slice_eq (by omega) (by simp; omega)]
    exact congrArg _ (t.length_field rest)
  have hval : slice (ε := RtdpError) (t.bytes ++ rest) 4 (4 + t.value.length) = .ok t.value := by
    rw [slice_eq (by omega) (by simp; omega), Nat.add_sub_cancel_left, t.value_field]
  have hn : (UInt16.ofNat t.value.length).toNat = t.value.length :=
    UInt16.toNat_ofNat_of_lt' t.value_fits
  unfold next
  rw [if_neg (by omega), hrem]
  simp only [bind, Except.bind, htype, hlenf, readU16_writeU16, hn, hval, List.length_append]
  rw [if_neg (by omega)]
  simp only [pure, Except.pure]
  rw [if_neg (by omega), hbytes]
  rfl

/-- Where no record starts, `next` reports a malformed frame and stays. -/
theorem next_malformed (hoff : it.offset < it.data.length)
    (h : ∀ (t : Tlv) rest, it.data.drop it.offset ≠ t.bytes ++ rest) :
    ∃ detail, it.next = .ok (some (.error (.malformed detail)), it) := by
  have hrem : slice (ε := RtdpError) it.data it.offset it.data.length =
      .ok (it.data.drop it.offset) := by
    rw [slice_eq (by omega) le_rfl, List.take_of_length_le (by simp)]
  unfold next
  rw [if_neg (by omega), hrem]
  simp only [bind, Except.bind]
  by_cases hshort : (it.data.drop it.offset).length < 4
  · exact ⟨_, by rw [if_pos hshort]; rfl⟩
  · rw [if_neg hshort, slice_eq (by omega) (by omega), slice_eq (by omega) (by omega)]
    simp only [pure, Except.pure]
    by_cases hfit : (it.data.drop it.offset).length <
        4 + paddedLen (readU16 (((it.data.drop it.offset).drop 2).take (4 - 2))).toNat
    · exact ⟨_, by rw [if_pos hfit]⟩
    · have header : 4 ≤ (it.data.drop it.offset).length := by omega
      obtain ⟨t, rest, ht⟩ := exists_tlv header (Nat.le_of_not_lt hfit)
      exact absurd ht (h t rest)

/-- Every call of `next` is one of the three. -/
theorem next_cases (it : ExtensionIterator) :
    (it.data.length ≤ it.offset ∧ it.next = .ok (none, it)) ∨
      (∃ (t : Tlv) (rest : List UInt8), it.data.drop it.offset = t.bytes ++ rest ∧
        it.next = .ok (some (.ok t.extension), { it with offset := it.offset + t.bytes.length })) ∨
      (it.offset < it.data.length ∧ (∀ (t : Tlv) rest, it.data.drop it.offset ≠ t.bytes ++ rest) ∧
        ∃ detail, it.next = .ok (some (.error (.malformed detail)), it)) := by
  by_cases hoff : it.data.length ≤ it.offset
  · exact .inl ⟨hoff, next_done hoff⟩
  · by_cases h : ∃ (t : Tlv) (rest : List UInt8), it.data.drop it.offset = t.bytes ++ rest
    · obtain ⟨t, rest, ht⟩ := h
      exact .inr (.inl ⟨t, rest, ht, next_tlv ht⟩)
    · push Not at h
      exact .inr (.inr ⟨by omega, h, next_malformed (by omega) h⟩)

/-- A yielded extension moves the iterator forward within its data. -/
theorem next_progress {ext : HeaderExtension} (h : it.next = .ok (some (.ok ext), it')) :
    it.offset < it.data.length ∧ it'.data = it.data ∧ it.offset < it'.offset := by
  rcases next_cases it with ⟨-, hn⟩ | ⟨t, rest, ht, hn⟩ | ⟨-, -, detail, hn⟩
  · rw [hn] at h
    cases h
  · have hlen : it.data.length - it.offset = t.bytes.length + rest.length := by
      simpa using congrArg List.length ht
    have hbytes := t.bytes_length
    rw [hn] at h
    cases h
    exact ⟨by omega, rfl, by simp; omega⟩
  · rw [hn] at h
    cases h

end ExtensionIterator

end Rtdp
