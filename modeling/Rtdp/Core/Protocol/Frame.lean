import Rtdp.Core.Protocol.Header
import Rtdp.Core.Protocol.Extensions

/-!
# Frames (`core/src/protocol/frame.rs`)

A decoded frame is a header, the extension bytes as they stood on the wire,
and the payload. `FrameView` borrows from the packet in the source and
`OwnedFrame` owns its bytes; here both hold byte lists.
-/

namespace Rtdp

structure FrameView where
  header : FixedHeader
  extensionBytes : List UInt8
  payload : List UInt8
  deriving DecidableEq, Repr

def FrameView.extensions (self : FrameView) : ExtensionIterator :=
  ExtensionIterator.new self.extensionBytes

structure OwnedFrame where
  header : FixedHeader
  extensionBytes : List UInt8
  payload : List UInt8
  deriving DecidableEq, Repr

namespace OwnedFrame

def newData (streamId sequence timestampNs publisherId : UInt64) (payload : List UInt8) :
    OwnedFrame where
  header := FixedHeader.newData streamId sequence timestampNs publisherId
    (UInt32.ofNat payload.length) 48
  extensionBytes := []
  payload := payload

def view (self : OwnedFrame) : FrameView where
  header := self.header
  extensionBytes := self.extensionBytes
  payload := self.payload

/-- The sequence of a frame; frames are buffered under it. -/
abbrev seq (f : OwnedFrame) : UInt64 := f.header.sequence

end OwnedFrame

end Rtdp
