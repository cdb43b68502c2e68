import Rtdp.Core.Serialization.RoundTrip

/-!
# Corruption on the wire

The checksum of a frame is its CRC-32C with the checksum field zeroed. A packet
that differs from an encoded frame in up to four bytes in a row, inside the
field or outside of it, is not decoded, whatever the damaged bytes mean.
-/

namespace Rtdp
open BigEndian BufferM

/-! ## The checksum field -/

section Field

variable {packet packet' : List UInt8}

theorem checksumZeroed_eq (packet : List UInt8) :
    checksumZeroed packet = packet.take 44 ++ [0, 0, 0, 0] ++ packet.drop 48 := rfl

/-- A packet is its zeroed form and its checksum field. -/
theorem eq_of_zeroed (length : packet.length = packet'.length)
    (zeroed : checksumZeroed packet = checksumZeroed packet')
    (field : (packet.drop 44).take 4 = (packet'.drop 44).take 4) : packet = packet' := by
  rw [checksumZeroed_eq, checksumZeroed_eq] at zeroed
  obtain ⟨front, back⟩ := List.append_inj zeroed (by simp [length])
  have front := List.append_inj_left' front rfl
  have split (p : List UInt8) : p = p.take 44 ++ ((p.drop 44).take 4 ++ p.drop 48) := by
    rw [show 48 = 44 + 4 from rfl, ← List.drop_drop, List.take_append_drop, List.take_append_drop]
  rw [split packet, split packet', front, field, back]

/-- Inside the field every byte is zeroed, outside none. -/
theorem getElem_checksumZeroed (h : 48 ≤ packet.length) (j : Nat) :
    (checksumZeroed packet)[j]? = if 44 ≤ j ∧ j < 48 then some 0 else packet[j]? := by
  have front : (packet.take 44 ++ [0, 0, 0, 0]).length = 48 := by simp; omega
  rw [checksumZeroed_eq]
  by_cases hfront : j < 44
  · rw [if_neg (by omega), List.append_assoc, List.getElem?_append_left (by simp; omega),
      List.getElem?_take, if_pos hfront]
  by_cases hback : 48 ≤ j
  · rw [if_neg (by omega), List.getElem?_append_right (by omega), front, List.getElem?_drop]
    congr 1
    omega
  · rw [if_pos ⟨by omega, by omega⟩, List.getElem?_append_left (by omega),
      List.getElem?_append_right (by simp; omega), List.length_take, Nat.min_eq_left (by omega)]
    obtain ⟨i, hi, rfl⟩ : ∃ i < 4, j = 44 + i := ⟨j - 44, by omega, by omega⟩
    rw [Nat.add_sub_cancel_left]
    exact List.getElem?_replicate_of_lt (n := 4) (a := (0 : UInt8)) hi

theorem checksumZeroed_length (h : 48 ≤ packet.length) :
    (checksumZeroed packet).length = packet.length := by
  rw [checksumZeroed_eq]
  simp
  omega

/-- Damage in the field does not show in the zeroed packet. -/
theorem zeroed_of_inside (long : 48 ≤ packet.length) (long' : 48 ≤ packet'.length)
    (inside : ∀ j, packet[j]? ≠ packet'[j]? → 44 ≤ j ∧ j < 48) :
    checksumZeroed packet = checksumZeroed packet' := by
  apply List.ext_getElem?
  intro j
  rw [getElem_checksumZeroed long, getElem_checksumZeroed long']
  split
  · rfl
  · rename_i out
    by_contra damaged
    exact out (inside j damaged)

/-- Damage outside of the field leaves it alone. -/
theorem field_of_outside (outside : ∀ j, packet[j]? ≠ packet'[j]? → ¬(44 ≤ j ∧ j < 48)) :
    (packet.drop 44).take 4 = (packet'.drop 44).take 4 := by
  apply List.ext_getElem?
  intro j
  rw [List.getElem?_take, List.getElem?_take, List.getElem?_drop, List.getElem?_drop]
  split
  · by_contra damaged
    exact outside _ damaged (by omega)
  · rfl

/-- Zeroing adds no damage. -/
theorem damaged_of_zeroed (long : 48 ≤ packet.length) (long' : 48 ≤ packet'.length) {j : Nat}
    (h : (checksumZeroed packet)[j]? ≠ (checksumZeroed packet')[j]?) : packet[j]? ≠ packet'[j]? := by
  rw [getElem_checksumZeroed long, getElem_checksumZeroed long'] at h
  split at h
  · exact absurd rfl h
  · exact h

/-- The checksum field as bytes. -/
theorem field_of_checksum (long : 48 ≤ packet.length) (long' : 48 ≤ packet'.length)
    (h : (HeaderWords.ofBytes packet).checksum = (HeaderWords.ofBytes packet').checksum) :
    (packet.drop 44).take 4 = (packet'.drop 44).take 4 := by
  have written := congrArg writeU32 h
  simp only [HeaderWords.ofBytes] at written
  rwa [writeU32_readU32 (by simp; omega), writeU32_readU32 (by simp; omega)] at written

end Field

/-- A sealed frame carries its own checksum. -/
theorem OwnedFrame.checksum_sealed (crc32c : List UInt8 → UInt32) (frame : OwnedFrame) :
    (HeaderWords.ofBytes (frame.sealed crc32c)).checksum = crc32c (checksumZeroed (frame.sealed crc32c)) := by
  rw [OwnedFrame.ofBytes_sealed, OwnedFrame.sealed, FrameCodec.checksumZeroed_wireBytes]
  rfl

/-- Two packets that carry their own checksums, one the other damaged in up to four bytes in a
row, are the same. -/
theorem eq_of_checksums {packet packet' : List UInt8} (length : packet.length = packet'.length)
    (long : 48 ≤ packet.length)
    (carried : (HeaderWords.ofBytes packet).checksum = crc32c (checksumZeroed packet))
    (carried' : (HeaderWords.ofBytes packet').checksum = crc32c (checksumZeroed packet')) {i k : Nat}
    (short : k ≤ 4) (within : ∀ j, packet[j]? ≠ packet'[j]? → i ≤ j ∧ j < i + k)
    (aside : (∀ j, packet[j]? ≠ packet'[j]? → 44 ≤ j ∧ j < 48) ∨
      ∀ j, packet[j]? ≠ packet'[j]? → ¬(44 ≤ j ∧ j < 48)) : packet = packet' := by
  have long' : 48 ≤ packet'.length := length ▸ long
  rcases aside with inside | outside
  · -- the rest is the same, so the checksum is
    have zeroed := zeroed_of_inside long long' inside
    apply eq_of_zeroed length zeroed
    apply field_of_checksum long long'
    rw [carried, carried', zeroed]
  · -- the field is the same, and no burst leaves the checksum alone
    have field := field_of_outside outside
    refine eq_of_zeroed length ?_ field
    by_contra differ
    have burst : castagnoli.checksum (checksumZeroed packet) ≠ castagnoli.checksum (checksumZeroed packet') := by
      apply Crc.checksum_ne_of_burst _ (Nat.mul_le_mul_left 8 short)
      · exact fun j hne => within j (damaged_of_zeroed long long' hne)
      · exact differ
      · rw [checksumZeroed_length long, checksumZeroed_length long', length]
    apply burst
    have same : crc32c (checksumZeroed packet) = crc32c (checksumZeroed packet') := by
      rw [← carried, ← carried']
      exact congrArg readU32 field
    exact congrArg UInt32.toBitVec same

namespace FrameCodec

/-- **Corruption is detected**: an encoded frame with up to four bytes in a row damaged, all in the
checksum field or all outside of it, is not decoded. -/
theorem corruption_detected (self : FrameCodec) (validates : self.config.validateChecksum = true)
    (frame : OwnedFrame) (dst : List UInt8) {n : Nat} {out : List UInt8}
    (encoded : exec (self.encode crc32c frame) dst = (.ok n, out)) {packet : List UInt8}
    (length : packet.length = n) (differ : packet ≠ out.take n) {i k : Nat} (short : k ≤ 4)
    (within : ∀ j, packet[j]? ≠ (out.take n)[j]? → i ≤ j ∧ j < i + k)
    (aside : (∀ j, packet[j]? ≠ (out.take n)[j]? → 44 ≤ j ∧ j < 48) ∨
      ∀ j, packet[j]? ≠ (out.take n)[j]? → ¬(44 ≤ j ∧ j < 48)) :
    ∃ e, exec (self.decode crc32c) packet = (.error (.err e), packet) := by
  rw [encode_take encoded] at differ within aside
  obtain ⟨-, rfl, -⟩ := encode_ok encoded
  obtain ⟨judgement, hexec, judged⟩ := self.decode_judges crc32c packet
  cases judgement with
  | error fault =>
    obtain ⟨e, rfl, -⟩ := judged.error rfl
    exact ⟨e, hexec⟩
  | ok view =>
    obtain ⟨w, tlvs, messageType, grammar, -⟩ := frameOf_decoded hexec
    refine absurd (eq_of_checksums ?_ ?_ ?_ ?_ short within aside) differ
    · rw [length, OwnedFrame.sealed, frame.wireBytes_length]
    · exact grammar.length
    · rw [grammar.ofBytes]
      exact (grammar.checksum validates).symm
    · exact frame.checksum_sealed crc32c

/-- The last payload byte is damaged. -/
theorem corruption_detected_padded :
    ∃ e, exec (withDefaultConfig.decode crc32c) (paddedPacket.set 57 0) =
      (.error (.err e), paddedPacket.set 57 0) := by
  have within (j : Nat) (damaged : (paddedPacket.set 57 0)[j]? ≠ paddedPacket[j]?) : j = 57 := by
    by_contra hne
    exact damaged (List.getElem?_set_ne (Ne.symm hne))
  apply corruption_detected withDefaultConfig rfl paddedFrame (List.replicate 60 0)
    (show exec _ _ = (.ok 58, paddedPacket ++ [0, 0]) by decide +kernel) rfl (by decide)
    (Nat.le_succ 3)
  · intro j damaged
    have := within j damaged
    exact (show 57 ≤ j ∧ j < 57 + 3 by omega)
  · refine Or.inr fun j damaged => ?_
    have := within j damaged
    omega

end FrameCodec

end Rtdp
