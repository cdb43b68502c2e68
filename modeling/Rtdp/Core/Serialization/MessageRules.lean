import Rtdp.Core.Recovery.Payloads
import Rtdp.Core.Serialization.Corruption

/-!
# The message rules of RTDP/1

The rules for a message of each type are checked in two places, `from_u16` and
the payload schemas of `decode`, which let two kinds of packets through: the
snapshot messages, and DATA frames with sequence 0. Every other accepted packet
obeys the rules.
-/

namespace Rtdp
open BigEndian BufferM

/-- What the specification asks of a received message, by its type. -/
structure ObeysRules (view : FrameView) : Prop where
  snapshot : view.header.messageType ≠ .snapshotRequest ∧ view.header.messageType ≠ .snapshotResponse
  data : view.header.messageType = .data → 1 ≤ view.header.sequence
  replayRequest : view.header.messageType = .replayRequest →
    ∃ req, ReplayRequestPayload.decode view.payload = .ok req ∧ req.fromSequence ≤ req.toSequence
  heartbeat : view.header.messageType = .heartbeat → view.payload = []
  replayResponse : view.header.messageType = .replayResponse → 8 ≤ view.payload.length

/-- The `message_type` and `sequence` fields name a message of version 0.1. -/
def InVersion (packet : List UInt8) : Prop :=
  let w := HeaderWords.ofBytes packet
  w.rawMsgType ≠ 0x0006 ∧ w.rawMsgType ≠ 0x0007 ∧ (w.rawMsgType = 0x0001 → 1 ≤ w.sequence)

namespace MessageType

/-- A type is known by its number. -/
theorem eq_iff_of_fromU16 {val : UInt16} {t t' : MessageType} (h : fromU16 val = .ok t)
    (known : fromU16 t'.asU16 = .ok t') : t = t' ↔ val = t'.asU16 := by
  constructor
  · rintro rfl
    exact (asU16_of_fromU16 h).symm
  · rintro rfl
    exact Except.ok.inj (h.symm.trans known)

/-- A payload of the REPLAY_REQUEST schema is decoded. -/
theorem decode_of_schema {payload : List UInt8} (h : replayRequest.Schema payload) :
    ∃ req, ReplayRequestPayload.decode payload = .ok req ∧ req.fromSequence ≤ req.toSequence := by
  obtain ⟨length, ordered⟩ := h
  exact ⟨_, ReplayRequestPayload.decode_eq length.ge (UInt64.not_lt.mpr ordered), ordered⟩

end MessageType

namespace FrameCodec

/-- **Accepted messages obey the rules** of their types exactly when their fields name a message of
version 0.1. -/
theorem accepted_obeys (crc32c : List UInt8 → UInt32) (self : FrameCodec) {packet after : List UInt8}
    {view : FrameView} (decoded : exec (self.decode crc32c) packet = (.ok view, after)) :
    ObeysRules view ↔ InVersion packet := by
  obtain ⟨w, tlvs, t, grammar, hheader, -⟩ := frameOf_decoded decoded
  have schema := grammar.schema
  have typed (t' : MessageType) (known : MessageType.fromU16 t'.asU16 = .ok t') :
      view.header.messageType = t' ↔ w.rawMsgType = t'.asU16 := by
    rw [hheader]
    exact MessageType.eq_iff_of_fromU16 grammar.message_type known
  have sequence : view.header.sequence = w.sequence := by rw [hheader]; rfl
  have held (t' : MessageType) (h : view.header.messageType = t') : t'.Schema view.payload := by
    rw [hheader] at h
    obtain rfl : t = t' := h
    exact schema
  rw [InVersion, grammar.ofBytes]
  constructor
  · intro rules
    refine ⟨?_, ?_, fun raw => ?_⟩
    · exact fun raw => rules.snapshot.1 ((typed .snapshotRequest rfl).mpr raw)
    · exact fun raw => rules.snapshot.2 ((typed .snapshotResponse rfl).mpr raw)
    · rw [← sequence]
      exact rules.data ((typed .data rfl).mpr raw)
  · rintro ⟨notRequest, notResponse, numbered⟩
    refine ⟨⟨?_, ?_⟩, fun h => ?_, fun h => ?_, fun h => ?_, fun h => ?_⟩
    · exact fun h => notRequest ((typed .snapshotRequest rfl).mp h)
    · exact fun h => notResponse ((typed .snapshotResponse rfl).mp h)
    · rw [sequence]
      exact numbered ((typed .data rfl).mp h)
    · exact MessageType.decode_of_schema (held _ h)
    · exact List.eq_nil_of_length_eq_zero (held _ h)
    · exact held _ h

theorem accepted_obeys_padded : ObeysRules paddedFrame.view ↔ InVersion paddedPacket :=
  accepted_obeys crc32c withDefaultConfig
    (show exec _ paddedPacket = (.ok paddedFrame.view, paddedPacket) by decide +kernel)

/-- A SNAPSHOT_REQUEST without payload. -/
def snapshotFrame : OwnedFrame where
  header := { FixedHeader.newData 42 1 0 1001 0 48 with messageType := .snapshotRequest }
  extensionBytes := []
  payload := []

/-- A snapshot message is accepted. -/
theorem snapshot_accepted :
    ∃ view, exec (withDefaultConfig.decode crc32c) (snapshotFrame.sealed crc32c) =
        (.ok view, snapshotFrame.sealed crc32c) ∧ ¬ ObeysRules view := by
  have decoded : exec (withDefaultConfig.decode crc32c) (snapshotFrame.sealed crc32c) =
      (.ok { snapshotFrame.view with
        header := { snapshotFrame.header with
          checksum := crc32c (snapshotFrame.wireBytes 0) } }, snapshotFrame.sealed crc32c) := by
    decide +kernel
  exact ⟨_, decoded, fun rules => rules.snapshot.1 rfl⟩

end FrameCodec

end Rtdp
