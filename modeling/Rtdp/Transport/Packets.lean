import Rtdp.Core.Serialization.RoundTrip

/-!
# Packets

Both ends encode a frame into a fresh zeroed buffer and send the written part
of it. What is sent is the sealed frame, or nothing.
-/

namespace Rtdp
open BufferM

namespace FrameCodec

variable {crc32c : List UInt8 → UInt32} {codec : FrameCodec} {room : Nat} {frame : OwnedFrame}

/-- `&buf[..len]`, once `encode` has written `len` bytes into `buf = vec![0u8; room]`. -/
def encodePacket (crc32c : List UInt8 → UInt32) (codec : FrameCodec) (room : Nat) (frame : OwnedFrame) :
    Call (List UInt8) :=
  match exec (codec.encode crc32c frame) (List.replicate room 0) with
  | (.ok len, buf) => slice buf 0 len
  | (.error e, _) => .error e

/-- What it takes to send a frame from a buffer of `room` bytes. -/
def Sendable (codec : FrameCodec) (room : Nat) (frame : OwnedFrame) : Prop :=
  codec.Encodable frame (List.replicate room 0)

theorem sendable_iff : codec.Sendable room frame ↔
    (48 + frame.extensionBytes.length) % 4 = 0 ∧ frame.wireLength ≤ codec.config.maxFrameSize ∧
      frame.wireLength ≤ room := by
  constructor
  · intro h
    exact ⟨h.aligned, h.fits, by simpa using h.room⟩
  · rintro ⟨aligned, fits, enough⟩
    exact ⟨aligned, fits, by simpa using enough⟩

theorem encodePacket_ok (crc32c : List UInt8 → UInt32) (h : codec.Sendable room frame) :
    codec.encodePacket crc32c room frame = .ok (frame.sealed crc32c) := by
  have hlen : (frame.sealed crc32c).length = frame.wireLength := frame.wireBytes_length _
  rw [encodePacket, exec_encode crc32c h]
  dsimp only
  rw [slice_eq (Nat.zero_le _) (by simp [hlen]), List.drop_zero, Nat.sub_zero, ← hlen, List.take_left]

theorem encodePacket_refused (crc32c : List UInt8 → UInt32) (h : ¬ codec.Sendable room frame) :
    ∃ e, codec.encodePacket crc32c room frame = .error (.err e) := by
  obtain ⟨e, he⟩ := exec_encode_refused crc32c h
  exact ⟨e, by rw [encodePacket, he]⟩

end FrameCodec

end Rtdp
