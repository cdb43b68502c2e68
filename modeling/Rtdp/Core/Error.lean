import Rtdp.Lib.Buffer

/-!
# Errors (`core/src/error.rs`)

`ErrorCode` is the wire enumeration; `RtdpError` is what the calls of the core
report. The constructors build the same detail texts as the source.
-/

namespace Rtdp

inductive ErrorCode where
  | versionMismatch
  | malformedFrame
  | checksumFailed
  | unsupportedMessageType
  | unsupportedExtension
  | replayUnavailable
  | replayRangeInvalid
  | streamNotFound
  | publisherNotAuthorized
  | frameTooLarge
  | rateLimited
  | backpressure
  deriving DecidableEq, Repr

namespace ErrorCode

def fromU16 (val : UInt16) : Option ErrorCode :=
  if val = 0x0001 then some .versionMismatch
  else if val = 0x0002 then some .malformedFrame
  else if val = 0x0003 then some .checksumFailed
  else if val = 0x0004 then some .unsupportedMessageType
  else if val = 0x0005 then some .unsupportedExtension
  else if val = 0x0006 then some .replayUnavailable
  else if val = 0x0007 then some .replayRangeInvalid
  else if val = 0x0008 then some .streamNotFound
  else if val = 0x0009 then some .publisherNotAuthorized
  else if val = 0x000A then some .frameTooLarge
  else if val = 0x000B then some .rateLimited
  else if val = 0x000C then some .backpressure
  else none

def asU16 : ErrorCode → UInt16
  | versionMismatch => 0x0001
  | malformedFrame => 0x0002
  | checksumFailed => 0x0003
  | unsupportedMessageType => 0x0004
  | unsupportedExtension => 0x0005
  | replayUnavailable => 0x0006
  | replayRangeInvalid => 0x0007
  | streamNotFound => 0x0008
  | publisherNotAuthorized => 0x0009
  | frameTooLarge => 0x000A
  | rateLimited => 0x000B
  | backpressure => 0x000C

/-- A code is read back as itself. -/
@[simp] theorem fromU16_asU16 (code : ErrorCode) : fromU16 code.asU16 = some code := by
  cases code <;> rfl

theorem asU16_pos (code : ErrorCode) : 0 < code.asU16.toNat := by
  cases code <;> decide

end ErrorCode

inductive RtdpError where
  | protocol (code : ErrorCode) (detail : String)
  | io (detail : String)
  | bufferExhausted
  | unrecoverableGap (fromSequence toSequence : UInt64)
  deriving DecidableEq, Repr

/-- `{:0width$X}`: upper-case hexadecimal, padded with zeros on the left. -/
def hexUpper (width n : Nat) : String :=
  let digits := (Nat.toDigits 16 n).map Char.toUpper
  String.ofList (List.replicate (width - digits.length) '0' ++ digits)

namespace RtdpError

def malformed (detail : String) : RtdpError := .protocol .malformedFrame detail

def versionMismatch (detail : String) : RtdpError := .protocol .versionMismatch detail

def checksumFailed (expected calculated : UInt32) : RtdpError :=
  .protocol .checksumFailed
    s!"Wire checksum 0x{hexUpper 8 expected.toNat} != calculated 0x{hexUpper 8 calculated.toNat}"

def unsupportedExtension (extType : UInt16) : RtdpError :=
  .protocol .unsupportedExtension
    s!"Critical extension type 0x{hexUpper 4 extType.toNat} is not supported"

def frameTooLarge (size max : Nat) : RtdpError :=
  .protocol .frameTooLarge s!"Frame length {size} exceeds configured maximum {max}"

def code : RtdpError → Option ErrorCode
  | .protocol code _ => some code
  | _ => none

@[simp] theorem code_protocol (c : ErrorCode) (d : String) : (protocol c d).code = some c := rfl

@[simp] theorem code_malformed (d : String) : (malformed d).code = some .malformedFrame := rfl

@[simp] theorem code_versionMismatch (d : String) :
    (versionMismatch d).code = some .versionMismatch := rfl

@[simp] theorem code_checksumFailed (e c : UInt32) :
    (checksumFailed e c).code = some .checksumFailed := rfl

@[simp] theorem code_unsupportedExtension (t : UInt16) :
    (unsupportedExtension t).code = some .unsupportedExtension := rfl

@[simp] theorem code_frameTooLarge (s m : Nat) :
    (frameTooLarge s m).code = some .frameTooLarge := rfl

end RtdpError

/-- Results of calls that cannot panic. -/
abbrev Result := Except RtdpError

/-- Results of calls that index byte slices. -/
abbrev Call := Except (Fault RtdpError)

end Rtdp
