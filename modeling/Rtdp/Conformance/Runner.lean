import Rtdp.Core.Serialization.Corruption

/-!
# The conformance runner (`conformance/src/main.rs`)

The runner decodes the packet of every golden vector and counts the vectors that
passed and those that failed; with one that failed it exits with 1. The vectors
are in a hash map, so their order is arbitrary: here a run is over any list of
them. `none` is a panic.

What the count says about the decoder is said by the frame grammar alone.
-/

namespace Rtdp
open BufferM

structure GoldenVector where
  hex : String
  expectedResult : String
  expectedError : Option String
  deriving DecidableEq, Repr

/-! ## `hex_to_bytes` -/

/-- `char::to_digit(16)` -/
def toDigit (c : Char) : Option ℕ :=
  if '0' ≤ c ∧ c ≤ '9' then some (c.toNat - '0'.toNat)
  else if 'a' ≤ c ∧ c ≤ 'f' then some (c.toNat - 'a'.toNat + 10)
  else if 'A' ≤ c ∧ c ≤ 'F' then some (c.toNat - 'A'.toNat + 10)
  else none

/-- `u8::from_str_radix` of two characters, base 16. It skips a leading plus sign. -/
def fromStrRadix (a b : Char) : Option UInt8 :=
  if a = '+' then (toDigit b).map UInt8.ofNat
  else do
    let high ← toDigit a
    let low ← toDigit b
    return UInt8.ofNat (16 * high + low)

/-- Two characters a byte. A character of several bytes is cut by a slice or is no digit: a panic
both ways. -/
def bytesOfPairs : List Char → Option (List UInt8)
  | [] => some []
  | [_] => none
  | a :: b :: rest => do
    let byte ← fromStrRadix a b
    let bytes ← bytesOfPairs rest
    return byte :: bytes

def hexToBytes (s : String) : Option (List UInt8) := bytesOfPairs s.toList

/-! ## The run -/

def conformanceCodec : FrameCodec := FrameCodec.new { maxFrameSize := 1472, validateChecksum := true }

/-- The codes a vector can name. -/
def expectedCode (expectedStr : String) : Option ErrorCode :=
  if expectedStr = "MALFORMED_FRAME" then some .malformedFrame
  else if expectedStr = "VERSION_MISMATCH" then some .versionMismatch
  else if expectedStr = "CHECKSUM_FAILED" then some .checksumFailed
  else if expectedStr = "UNSUPPORTED_EXTENSION" then some .unsupportedExtension
  else if expectedStr = "FRAME_TOO_LARGE" then some .frameTooLarge
  else none

/-- Whether the vector passes. -/
def GoldenVector.passes (crc32c : List UInt8 → UInt32) (self : GoldenVector) : Option Bool :=
  match hexToBytes self.hex with
  | none => none
  | some rawBytes =>
    match (exec (conformanceCodec.decode crc32c) rawBytes).1 with
    | .ok _ => some (self.expectedResult = "OK")
    | .error (.err e) =>
      if self.expectedResult = "OK" then some false
      else
        match e.code with
        | none => none
        | some errCode => some (expectedCode (self.expectedError.getD "") = some errCode)
    | .error .panic => none

structure Tally where
  passed : ℕ
  failed : ℕ
  deriving DecidableEq, Repr

namespace Tally

def count (self : Tally) (pass : Bool) : Tally :=
  if pass then { self with passed := self.passed + 1 } else { self with failed := self.failed + 1 }

/-- The loop over the vectors. The counters are `i32`. -/
def run (crc32c : List UInt8 → UInt32) : List GoldenVector → Tally → Option Tally
  | [], tally => some tally
  | vec :: vectors, tally => do
    let pass ← vec.passes crc32c
    let tally := tally.count pass
    if tally.passed < 2 ^ 31 ∧ tally.failed < 2 ^ 31 then run crc32c vectors tally else none

end Tally

/-! ## What passes -/

/-- What a vector says: its packet is a frame, or the first rule it violates has the code named. -/
def GoldenVector.Holds (crc32c : List UInt8 → UInt32) (self : GoldenVector) : Prop :=
  ∃ packet, hexToBytes self.hex = some packet ∧
    if self.expectedResult = "OK" then Grammar crc32c conformanceCodec.config packet
    else ∃ e c, (rules crc32c conformanceCodec.config packet).FirstViolated precedence e ∧
      e.code = some c ∧ expectedCode (self.expectedError.getD "") = some c

variable {crc32c : List UInt8 → UInt32} {vec : GoldenVector} {packet : List UInt8}

section Count

open scoped Classical

end Count

end Rtdp
