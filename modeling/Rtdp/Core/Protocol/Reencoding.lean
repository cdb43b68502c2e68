import Rtdp.Core.Protocol.Iteration

/-!
# Writing extensions and reading them back

`encode` writes a record with zero padding. Extensions written one behind the
other are read back as they were, as long as each has a length that fits its
16-bit field and the critical flag its type stands for; records that were read
are written back up to their padding.
-/

namespace Rtdp
open BigEndian BufferM

namespace HeaderExtension

/-- What `encode` writes. -/
def wire (self : HeaderExtension) : List UInt8 :=
  writeU16 self.extType ++ writeU16 (UInt16.ofNat self.value.length) ++ self.value ++
    List.replicate (paddedLen self.value.length - self.value.length) 0

@[simp] theorem wire_length (self : HeaderExtension) : self.wire.length = self.wireLen := by
  have := le_paddedLen self.value.length
  simp [wire, wireLen]
  omega

theorem exec_encode {self : HeaderExtension} {dst : List UInt8} (room : self.wireLen ≤ dst.length) :
    exec self.encode dst = (.ok self.wireLen, self.wire ++ dst.drop self.wireLen) := by
  have hle := le_paddedLen self.value.length
  have hlen : self.wireLen = 4 + paddedLen self.value.length := rfl
  have htype : exec (store 0 2 (writeU16 self.extType) : BufferM RtdpError Unit) ([] ++ dst.drop 0) =
      (.ok (), [] ++ writeU16 self.extType ++ dst.drop 2) :=
    exec_store_next rfl (by simp) (by omega)
  have hlength : exec (store 2 4 (writeU16 (UInt16.ofNat self.value.length)) : BufferM RtdpError Unit)
      (writeU16 self.extType ++ dst.drop 2) =
      (.ok (), writeU16 self.extType ++ writeU16 (UInt16.ofNat self.value.length) ++ dst.drop 4) :=
    exec_store_next (by simp) (by simp) (by omega)
  have hvalue : exec (store 4 (4 + self.value.length) self.value : BufferM RtdpError Unit)
      (writeU16 self.extType ++ writeU16 (UInt16.ofNat self.value.length) ++ dst.drop 4) =
      (.ok (), writeU16 self.extType ++ writeU16 (UInt16.ofNat self.value.length) ++ self.value ++
        dst.drop (4 + self.value.length)) :=
    exec_store_next (by simp) rfl (by omega)
  have hpadding : exec (store (4 + self.value.length) self.wireLen
      (List.replicate (self.wireLen - (4 + self.value.length)) 0) : BufferM RtdpError Unit)
      (writeU16 self.extType ++ writeU16 (UInt16.ofNat self.value.length) ++ self.value ++
        dst.drop (4 + self.value.length)) =
      (.ok (), self.wire ++ dst.drop self.wireLen) := by
    have hpad : self.wireLen - (4 + self.value.length) =
        paddedLen self.value.length - self.value.length := by omega
    rw [hpad]
    exact exec_store_next (by simp; omega) (by simp; omega) room
  unfold encode
  refine (exec_bind_ok (exec_get dst)).trans ?_
  refine (exec_else (Nat.not_lt.2 room)).trans ?_
  refine (exec_bind_ok htype).trans ?_
  refine (exec_bind_ok hlength).trans ?_
  refine (exec_bind_ok hvalue).trans ?_
  exact exec_bind_ok hpadding

theorem exec_encode_refused {self : HeaderExtension} {dst : List UInt8}
    (short : dst.length < self.wireLen) : ∃ e, exec self.encode dst = (.error (.err e), dst) := by
  unfold encode
  exact ⟨_, (exec_bind_ok (exec_get dst)).trans (exec_stop short)⟩

end HeaderExtension

/-- Write the extensions one behind the other, each at the offset the one before has returned. -/
def encodeAll : List HeaderExtension → Nat → BufferM RtdpError Nat
  | [], offset => return offset
  | ext :: rest, offset => do
    let written ← onSuffix offset ext.encode
    encodeAll rest (offset + written)

/-- The bytes of the extensions one behind the other. -/
def wireAll (exts : List HeaderExtension) : List UInt8 := exts.flatMap HeaderExtension.wire

@[simp] theorem wireAll_cons (ext : HeaderExtension) (exts : List HeaderExtension) :
    wireAll (ext :: exts) = ext.wire ++ wireAll exts := rfl

theorem wireAll_length (exts : List HeaderExtension) :
    (wireAll exts).length = (exts.map HeaderExtension.wireLen).sum := by
  induction exts with
  | nil => rfl
  | cons ext exts ih => simp [ih]

/-- One extension behind what has been written already. -/
theorem exec_encode_next {ext : HeaderExtension} {front back : List UInt8}
    (room : ext.wireLen ≤ back.length) :
    exec (onSuffix front.length ext.encode) (front ++ back) =
      (.ok ext.wireLen, (front ++ ext.wire) ++ back.drop ext.wireLen) := by
  rw [exec_onSuffix (by simp), List.drop_left, List.take_left, HeaderExtension.exec_encode room,
    List.append_assoc]

/-- With room for all, they are written. -/
theorem exec_encodeAll {exts : List HeaderExtension} (front : List UInt8) {back : List UInt8}
    (room : (wireAll exts).length ≤ back.length) :
    exec (encodeAll exts front.length) (front ++ back) =
      (.ok (front.length + (wireAll exts).length),
        front ++ wireAll exts ++ back.drop (wireAll exts).length) := by
  induction exts generalizing front back with
  | nil => simp [encodeAll, wireAll]
  | cons ext exts ih =>
    rw [wireAll_cons, List.length_append, HeaderExtension.wire_length] at room
    unfold encodeAll
    rw [exec_bind_ok (exec_encode_next (by omega))]
    have hroom : (wireAll exts).length ≤ (back.drop ext.wireLen).length := by
      rw [List.length_drop]
      omega
    have hrest := ih (front ++ ext.wire) hroom
    rw [List.length_append, HeaderExtension.wire_length] at hrest
    rw [hrest]
    simp [Nat.add_assoc, List.append_assoc]

/-- Without, some extension is refused. -/
theorem exec_encodeAll_refused {exts : List HeaderExtension} (front : List UInt8) {back : List UInt8}
    (short : back.length < (wireAll exts).length) :
    ∃ e buf, exec (encodeAll exts front.length) (front ++ back) = (.error e, buf) := by
  induction exts generalizing front back with
  | nil => simp [wireAll] at short
  | cons ext exts ih =>
    rw [wireAll_cons, List.length_append, HeaderExtension.wire_length] at short
    unfold encodeAll
    by_cases room : ext.wireLen ≤ back.length
    · rw [exec_bind_ok (exec_encode_next room)]
      have hshort : (back.drop ext.wireLen).length < (wireAll exts).length := by
        rw [List.length_drop]
        omega
      have hrest := ih (front ++ ext.wire) hshort
      rwa [List.length_append, HeaderExtension.wire_length] at hrest
    · obtain ⟨e, he⟩ := HeaderExtension.exec_encode_refused (Nat.lt_of_not_le room)
      have hstop : exec (onSuffix front.length ext.encode) (front ++ back) =
          (.error (.err e), front ++ back) := by
        rw [exec_onSuffix (by simp), List.drop_left, List.take_left, he]
      exact ⟨_, _, exec_bind_error hstop⟩

/-- What a call that returns has written. -/
theorem encodeAll_written {exts : List HeaderExtension} {dst dst' : List UInt8} {n : Nat}
    (written : exec (encodeAll exts 0) dst = (.ok n, dst')) : dst'.take n = wireAll exts := by
  by_cases room : (wireAll exts).length ≤ dst.length
  · have hexec := exec_encodeAll [] room
    rw [List.length_nil, List.nil_append, written] at hexec
    cases hexec
    simp
  · obtain ⟨e, buf, he⟩ := exec_encodeAll_refused [] (Nat.lt_of_not_le room)
    rw [List.length_nil, List.nil_append, written] at he
    cases he

/-! ## Written, then read -/

/-- An extension the wire format can carry. -/
structure HeaderExtension.Writable (ext : HeaderExtension) : Prop where
  fits : ext.value.length < 2 ^ 16
  critical : ext.isCritical = (ext.extType &&& CRITICAL_EXTENSION_BIT != 0)

theorem Tlv.extension_writable (t : Tlv) : t.extension.Writable := ⟨t.value_fits, rfl⟩

/-- `encode` writes a record of it. -/
theorem HeaderExtension.Writable.exists_record {ext : HeaderExtension} (h : ext.Writable) :
    ∃ t : Tlv, t.extension = ext ∧ t.bytes = ext.wire := by
  obtain ⟨extType, isCritical, value⟩ := ext
  have hcritical : isCritical = (extType &&& CRITICAL_EXTENSION_BIT != 0) := h.critical
  subst hcritical
  exact ⟨⟨extType, value, List.replicate (paddedLen value.length - value.length) 0, h.fits, by simp⟩,
    rfl, rfl⟩

theorem exists_records {exts : List HeaderExtension} (h : ∀ ext ∈ exts, ext.Writable) :
    ∃ ts : List Tlv, ts.map Tlv.extension = exts ∧ tlvCode.stream ts = wireAll exts := by
  induction exts with
  | nil => exact ⟨[], rfl, rfl⟩
  | cons ext exts ih =>
    obtain ⟨hext, hexts⟩ := List.forall_mem_cons.mp h
    obtain ⟨t, rfl, ht⟩ := hext.exists_record
    obtain ⟨ts, rfl, hts⟩ := ih hexts
    refine ⟨t :: ts, rfl, ?_⟩
    rw [PrefixCode.stream_cons, hts, wireAll_cons, ← ht]
    rfl

/-- What iterates to these extensions is records of them. -/
theorem yields_ok_iff {it : ExtensionIterator} {exts : List HeaderExtension} :
    it.Yields (exts.map .ok) ↔ ∃ ts : List Tlv, it.area = tlvCode.stream ts ∧ exts = ts.map Tlv.extension := by
  have hok : ∀ ts : List Tlv, exts.map (Except.ok (ε := RtdpError)) = ts.map (fun t => .ok t.extension) ↔
      exts = ts.map Tlv.extension := by
    intro ts
    have hsplit : ts.map (fun t => Except.ok (ε := RtdpError) t.extension) = (ts.map Tlv.extension).map .ok := by
      simp
    rw [hsplit]
    exact (List.map_injective_iff.mpr fun a b h => Except.ok.inj h).eq_iff
  rw [ExtensionIterator.yields_iff]
  exact exists_congr fun ts => and_congr_right fun _ => hok ts

/-- **Extensions written are read back** exactly if each is writable. -/
theorem encode_then_iterate_iff (exts : List HeaderExtension) (dst dst' : List UInt8) (n : Nat)
    (written : exec (encodeAll exts 0) dst = (.ok n, dst')) :
    (ExtensionIterator.new (dst'.take n)).Yields (exts.map .ok) ↔ ∀ ext ∈ exts, ext.Writable := by
  rw [encodeAll_written written, yields_ok_iff, ExtensionIterator.area_new]
  constructor
  · rintro ⟨ts, -, rfl⟩ ext hext
    obtain ⟨t, -, rfl⟩ := List.mem_map.mp hext
    exact t.extension_writable
  · intro h
    obtain ⟨ts, hexts, hstream⟩ := exists_records h
    exact ⟨ts, hstream.symm, hexts.symm⟩

theorem encode_then_iterate_two :
    let exts : List HeaderExtension := [.new 1 [7, 8, 9], .new 0x8001 []]
    let result := exec (encodeAll exts 0) (List.replicate 16 0xFF)
    (ExtensionIterator.new (result.2.take 12)).Yields (exts.map .ok) :=
  (encode_then_iterate_iff [.new 1 [7, 8, 9], .new 0x8001 []] (List.replicate 16 0xFF) _ 12 rfl).mpr (by
    simp only [List.forall_mem_cons]
    exact ⟨⟨by decide, rfl⟩, ⟨by decide, rfl⟩, by simp⟩)

/-- What is too long for its length field is written, but not read back. -/
theorem long_value_lost (extType : UInt16) {value dst : List UInt8} (long : ¬ value.length < 2 ^ 16)
    (room : 4 + paddedLen value.length ≤ dst.length) :
    ∃ n dst', exec (encodeAll [.new extType value] 0) dst = (.ok n, dst') ∧
      ¬ (ExtensionIterator.new (dst'.take n)).Yields [.ok (.new extType value)] := by
  have hroom : (wireAll [.new extType value]).length ≤ dst.length := by
    rw [wireAll_length]
    exact room
  refine ⟨_, _, exec_encodeAll [] hroom, fun hyields => long ?_⟩
  obtain ⟨ts, -, hts⟩ := ExtensionIterator.yields_iff.mp hyields
  obtain ⟨t, rfl⟩ : ∃ t, ts = [t] :=
    List.length_eq_one_iff.mp (by simpa using (congrArg List.length hts).symm)
  have ht : HeaderExtension.new extType value = t.extension := Except.ok.inj (List.head_eq_of_cons_eq hts)
  have hvalue : value = t.value := congrArg HeaderExtension.value ht
  rw [hvalue]
  exact t.value_fits

/-- A value of 65536 bytes is written under the length 0. -/
theorem encode_then_iterate_loses_long_value :
    ∃ n dst', exec (encodeAll [.new 1 (List.replicate 65536 0)] 0) (List.replicate 65540 0) = (.ok n, dst') ∧
      ¬ (ExtensionIterator.new (dst'.take n)).Yields [.ok (.new 1 (List.replicate 65536 0))] := by
  apply long_value_lost
  · rw [List.length_replicate]
    decide
  · rw [List.length_replicate, List.length_replicate]
    decide

/-! ## Read, then written -/

/-- The byte at `i` pads one of the records of the area. -/
def PaddingAt (area : List UInt8) (i : Nat) : Prop :=
  ∃ (before after : List Tlv) (t : Tlv), area = tlvCode.stream (before ++ t :: after) ∧
    (tlvCode.stream before).length + 4 + t.value.length ≤ i ∧
    i < (tlvCode.stream before).length + t.bytes.length

theorem Tlv.wire_extension_length (t : Tlv) : t.extension.wire.length = t.bytes.length := by
  rw [HeaderExtension.wire_length, t.bytes_length]
  rfl

/-- A record is written back up to its padding, which is zeroed. -/
theorem Tlv.wire_extension_differs {t : Tlv} {i : Nat} (h : t.extension.wire[i]? ≠ t.bytes[i]?) :
    4 + t.value.length ≤ i ∧ i < t.bytes.length ∧ t.extension.wire[i]? = some 0 := by
  obtain ⟨front, hfront⟩ : ∃ front, front =
      writeU16 t.extType ++ writeU16 (UInt16.ofNat t.value.length) ++ t.value := ⟨_, rfl⟩
  have hlen : front.length = 4 + t.value.length := by
    rw [hfront]
    simp
    omega
  have hbytes : t.bytes = front ++ t.padding := by
    rw [hfront]
    rfl
  have hwire : t.extension.wire =
      front ++ List.replicate (paddedLen t.value.length - t.value.length) 0 := by
    rw [hfront]
    rfl
  have hbehind : front.length ≤ i := by
    by_contra hlt
    rw [hbytes, hwire, List.getElem?_append_left (by omega), List.getElem?_append_left (by omega)] at h
    exact h rfl
  have hinside : i < t.bytes.length := by
    by_contra hge
    rw [List.getElem?_eq_none (by rw [t.wire_extension_length]; omega),
      List.getElem?_eq_none (by omega)] at h
    exact h rfl
  refine ⟨hlen ▸ hbehind, hinside, ?_⟩
  have hle := le_paddedLen t.value.length
  rw [t.bytes_length] at hinside
  rw [hwire, List.getElem?_append_right hbehind, List.getElem?_replicate, if_pos (by omega)]

theorem wireAll_extension_length (ts : List Tlv) :
    (wireAll (ts.map Tlv.extension)).length = (tlvCode.stream ts).length := by
  induction ts with
  | nil => rfl
  | cons t ts ih =>
    rw [List.map_cons, wireAll_cons, PrefixCode.stream_cons, List.length_append, List.length_append, ih,
      t.wire_extension_length]
    rfl

/-- **Run**: so are records one behind the other. -/
theorem wireAll_differs {ts : List Tlv} {i : Nat}
    (h : (wireAll (ts.map Tlv.extension))[i]? ≠ (tlvCode.stream ts)[i]?) :
    PaddingAt (tlvCode.stream ts) i ∧ (wireAll (ts.map Tlv.extension))[i]? = some 0 := by
  induction ts generalizing i with
  | nil => exact absurd rfl h
  | cons t ts ih =>
    have hstream : tlvCode.stream (t :: ts) = t.bytes ++ tlvCode.stream ts := rfl
    have hlen := t.wire_extension_length
    rw [List.map_cons, wireAll_cons, hstream] at h ⊢
    by_cases hi : i < t.bytes.length
    · rw [List.getElem?_append_left (by omega), List.getElem?_append_left hi] at h
      obtain ⟨hbehind, -, hzero⟩ := Tlv.wire_extension_differs h
      rw [List.getElem?_append_left (by omega)]
      exact ⟨⟨[], ts, t, rfl, by simpa using hbehind, by simpa using hi⟩, hzero⟩
    · rw [List.getElem?_append_right (by omega), List.getElem?_append_right (by omega), hlen] at h
      obtain ⟨⟨before, after, u, hts, hlo, hhi⟩, hzero⟩ := ih h
      rw [List.getElem?_append_right (by omega), hlen]
      refine ⟨⟨t :: before, after, u, ?_, ?_, ?_⟩, hzero⟩
      · rw [hts]
        rfl
      · rw [PrefixCode.stream_cons, List.length_append]
        change t.bytes.length + _ + 4 + _ ≤ i
        omega
      · rw [PrefixCode.stream_cons, List.length_append]
        change i < t.bytes.length + _ + _
        omega

/-- **Extensions read are written back**: an iteration without an error tiles the slice, and what
is written of its items differs from the slice in zeroed padding at most, and reads the same. -/
theorem iterate_then_encode (data : List UInt8) (ok : (ExtensionIterator.new data).OnlyOk) :
    ∃ exts : List HeaderExtension, (ExtensionIterator.new data).Yields (exts.map .ok) ∧
      (exts.map HeaderExtension.wireLen).sum = data.length ∧ 4 ∣ data.length ∧
      ∀ dst, data.length ≤ dst.length → ∃ out,
        exec (encodeAll exts 0) dst = (.ok data.length, out ++ dst.drop data.length) ∧
          out.length = data.length ∧
          (∀ i, out[i]? ≠ data[i]? → PaddingAt data i ∧ out[i]? = some 0) ∧
          (ExtensionIterator.new out).Yields (exts.map .ok) := by
  obtain ⟨ts, -, hts⟩ := ExtensionIterator.onlyOk_iff.mp ok
  rw [ExtensionIterator.area_new] at hts
  subst hts
  have hlen := wireAll_extension_length ts
  have hwritable : ∀ ext ∈ ts.map Tlv.extension, ext.Writable := by
    intro ext hext
    obtain ⟨t, -, rfl⟩ := List.mem_map.mp hext
    exact t.extension_writable
  obtain ⟨us, hus, hwire⟩ := exists_records hwritable
  refine ⟨ts.map Tlv.extension, yields_ok_iff.mpr ⟨ts, rfl, rfl⟩, ?_, ?_, fun dst room => ?_⟩
  · rw [← wireAll_length, hlen]
  · exact Nat.dvd_of_mod_eq_zero (four_dvd_stream ts)
  · refine ⟨wireAll (ts.map Tlv.extension), ?_, hlen, fun i => wireAll_differs, ?_⟩
    · have hexec := exec_encodeAll [] (hlen.trans_le room)
      simpa [hlen] using hexec
    · exact yields_ok_iff.mpr ⟨us, hwire.symm, hus.symm⟩

/-- One value byte, padded with garbage. -/
def dirtyRecord : Tlv where
  extType := 1
  value := [7]
  padding := [0xFF, 0xFF, 0xFF]
  value_fits := by decide
  padding_length := rfl

theorem iterate_then_encode_dirty :
    ∃ exts : List HeaderExtension, (ExtensionIterator.new dirtyRecord.bytes).Yields (exts.map .ok) ∧
      (exts.map HeaderExtension.wireLen).sum = 8 ∧
      ∃ out, exec (encodeAll exts 0) (List.replicate 8 0xEE) = (.ok 8, out ++ []) ∧
        ∀ i, out[i]? ≠ dirtyRecord.bytes[i]? → PaddingAt dirtyRecord.bytes i ∧ out[i]? = some 0 := by
  have harea : (ExtensionIterator.new dirtyRecord.bytes).area = tlvCode.stream [dirtyRecord] := rfl
  obtain ⟨exts, hyields, hsum, -, hwrite⟩ :=
    iterate_then_encode dirtyRecord.bytes (ExtensionIterator.onlyOk_of_stream harea)
  obtain ⟨out, hexec, -, hdiffers, -⟩ := hwrite (List.replicate 8 0xEE) (by decide)
  exact ⟨exts, hyields, hsum, out, hexec, hdiffers⟩

end Rtdp
