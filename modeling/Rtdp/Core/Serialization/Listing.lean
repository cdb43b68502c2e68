import Rtdp.Core.Protocol.Reencoding
import Rtdp.Core.Serialization.RoundTrip

/-!
# The extensions of an accepted packet

A reader walks the extensions of a decoded frame with the iterator, as `inspect`
does in `cli/src/main.rs`. The decoder has walked them before: it accepts a
packet only if the walk ends without an error and without a critical extension,
so the arm for an error is never taken there.
-/

namespace Rtdp
open BufferM

/-- What a walk over an extension area shows: all of it, in whole records, none of them critical. -/
structure Listing (area : List UInt8) (exts : List HeaderExtension) : Prop where
  yields : (ExtensionIterator.new area).Yields (exts.map .ok)
  only : ∀ items, (ExtensionIterator.new area).Yields items → items = exts.map .ok
  skippable : ∀ ext ∈ exts, ext.isCritical = false
  wire : (exts.map HeaderExtension.wireLen).sum = area.length
  few : 4 * exts.length ≤ area.length

variable {area : List UInt8} {exts : List HeaderExtension}

/-- Records that are read one way can be walked one way. -/
theorem yields_unique {it : ExtensionIterator} {items items' : List (Result HeaderExtension)}
    (h : it.Yields items) (h' : it.Yields items') : items = items' := by
  obtain ⟨ts, hts, rfl⟩ := ExtensionIterator.yields_iff.mp h
  obtain ⟨ts', hts', rfl⟩ := ExtensionIterator.yields_iff.mp h'
  rw [tlvCode.stream_injective (hts.symm.trans hts')]

theorem Listing.of_records {tlvs : List Tlv} (skippable : ∀ t ∈ tlvs, t.Skippable) :
    Listing (tlvCode.stream tlvs) (tlvs.map Tlv.extension) := by
  have yields : (ExtensionIterator.new (tlvCode.stream tlvs)).Yields ((tlvs.map Tlv.extension).map .ok) :=
    yields_ok_iff.mpr ⟨tlvs, rfl, rfl⟩
  refine ⟨yields, fun items h => yields_unique h yields, ?_, ?_, ?_⟩
  · intro ext hext
    obtain ⟨t, ht, rfl⟩ := List.mem_map.mp hext
    exact skippable t ht
  · rw [← wireAll_length, wireAll_extension_length]
  · rw [List.length_map]
    exact length_le_stream tlvs

/-- Whoever walks an area to its end and meets nothing critical has seen skippable records. -/
theorem tiled_iff_listing : tlvCode.Tiled Tlv.Skippable area ↔ ∃ exts, Listing area exts := by
  constructor
  · rintro ⟨tlvs, skippable, rfl⟩
    exact ⟨_, Listing.of_records skippable⟩
  · rintro ⟨exts, h⟩
    obtain ⟨tlvs, harea, rfl⟩ := yields_ok_iff.mp h.yields
    exact ⟨tlvs, fun t ht => h.skippable _ (List.mem_map_of_mem ht), harea⟩

namespace FrameCodec

/-- **The decoder and the iterator agree** on the extensions: a packet is accepted exactly if nothing
else is wrong with it and the walk over its extension area ends with whole records, none of them
critical. That area is what stands between the header and the payload of an accepted packet. -/
theorem decode_listing (crc32c : List UInt8 → UInt32) (self : FrameCodec) (packet : List UInt8) :
    ((∃ view, exec (self.decode crc32c) packet = (.ok view, packet)) ↔
        (∀ r, r ≠ .extensions → (rules crc32c self.config packet).Holds r) ∧
          ∃ exts, Listing (extensionArea packet) exts) ∧
      ∀ view after, exec (self.decode crc32c) packet = (.ok view, after) →
        view.extensionBytes = extensionArea packet ∧
          view.header.headerLength.toNat = 48 + view.extensionBytes.length ∧
          packet = packet.take 48 ++ view.extensionBytes ++ view.payload := by
  constructor
  · obtain ⟨judgement, hexec, judged⟩ := self.decode_judges crc32c packet
    have accepted : (∃ view, exec (self.decode crc32c) packet = (.ok view, packet)) ↔
        ∀ r ∈ precedence, (rules crc32c self.config packet).Holds r := by
      rw [← judged.ok_iff, hexec]
      simp only [Prod.mk.injEq, and_true]
    rw [accepted, ← tiled_iff_listing]
    constructor
    · exact fun holds => ⟨fun r _ => holds r (by cases r <;> simp [precedence]), holds .extensions (by simp [precedence])⟩
    · rintro ⟨others, area⟩ r -
      by_cases hr : r = .extensions
      · rw [hr]
        exact area
      · exact others r hr
  · intro view after hexec
    obtain ⟨w, tlvs, messageType, frame, hheader, harea⟩ := frameOf_decoded hexec
    refine ⟨harea.trans frame.extensionArea.symm, ?_, ?_⟩
    · rw [hheader, harea]
      exact frame.header_length
    · have hfront : packet.take 48 = w.bytes := by
        rw [frame.split, List.append_assoc, List.take_left' w.bytes_length]
      rw [hfront, harea]
      exact frame.split

end FrameCodec

end Rtdp
