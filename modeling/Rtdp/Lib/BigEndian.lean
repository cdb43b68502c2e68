import Mathlib.Data.UInt
import Mathlib.Tactic

/-!
# Big-endian words

Unsigned words of a fixed number of bytes, most significant byte first, over
byte lists. `encode` and `value` are inverse on words that fit and on byte
lists of the right length; the 16-, 32- and 64-bit readers and writers are
their instances at the machine types.
-/

namespace BigEndian

/-- The `width` low bytes of `value`, most significant first. -/
def encode : Nat → Nat → List UInt8
  | 0, _ => []
  | width + 1, value => UInt8.ofNat (value / 256 ^ width) :: encode width value

/-- The number a byte list spells. -/
def value : List UInt8 → Nat
  | [] => 0
  | byte :: rest => byte.toNat * 256 ^ rest.length + value rest

@[simp] theorem encode_length (width v : Nat) : (encode width v).length = width := by
  induction width with
  | zero => rfl
  | succ width ih => simp [encode, ih]

theorem value_lt (bytes : List UInt8) : value bytes < 256 ^ bytes.length := by
  induction bytes with
  | nil => simp [value]
  | cons byte rest ih =>
    have hb : byte.toNat + 1 ≤ 256 := byte.toNat_lt
    calc value (byte :: rest) < byte.toNat * 256 ^ rest.length + 256 ^ rest.length := by
          simp only [value]; omega
      _ = (byte.toNat + 1) * 256 ^ rest.length := by ring
      _ ≤ 256 * 256 ^ rest.length := Nat.mul_le_mul_right _ hb
      _ = 256 ^ (byte :: rest).length := by rw [List.length_cons, pow_succ]; ring

/-- Reading back a written word reduces it to its width. -/
theorem value_encode (width v : Nat) : value (encode width v) = v % 256 ^ width := by
  induction width with
  | zero => simp [encode, value, Nat.mod_one]
  | succ width ih =>
    have hb : (UInt8.ofNat (v / 256 ^ width)).toNat = v / 256 ^ width % 256 := by simp
    rw [encode, value, ih, hb, encode_length, Nat.mod_pow_succ]
    ring

/-- Only the low bytes of a number are written. -/
theorem encode_add_mul (width v k : Nat) : encode width (k * 256 ^ width + v) = encode width v := by
  induction width generalizing k with
  | zero => rfl
  | succ width ih =>
    have split : k * 256 ^ (width + 1) + v = (k * 256) * 256 ^ width + v := by ring
    have pos : 0 < 256 ^ width := by positivity
    rw [encode, encode, split, ih, Nat.mul_comm (k * 256), Nat.mul_add_div pos]
    congr 1
    apply UInt8.toNat_inj.mp
    simp

/-- Writing the word a byte list spells gives the byte list back. -/
theorem encode_value (bytes : List UInt8) : encode bytes.length (value bytes) = bytes := by
  induction bytes with
  | nil => rfl
  | cons byte rest ih =>
    have pos : 0 < 256 ^ rest.length := by positivity
    have head : (byte.toNat * 256 ^ rest.length + value rest) / 256 ^ rest.length = byte.toNat := by
      rw [Nat.mul_comm, Nat.mul_add_div pos, Nat.div_eq_of_lt (value_lt rest), Nat.add_zero]
    rw [List.length_cons, encode, value, head, encode_add_mul, ih]
    simp

/-! ## Machine words -/

def readU16 (bytes : List UInt8) : UInt16 := UInt16.ofNat (value bytes)
def readU32 (bytes : List UInt8) : UInt32 := UInt32.ofNat (value bytes)
def readU64 (bytes : List UInt8) : UInt64 := UInt64.ofNat (value bytes)

def writeU16 (v : UInt16) : List UInt8 := encode 2 v.toNat
def writeU32 (v : UInt32) : List UInt8 := encode 4 v.toNat
def writeU64 (v : UInt64) : List UInt8 := encode 8 v.toNat

@[simp] theorem writeU16_length (v : UInt16) : (writeU16 v).length = 2 := encode_length 2 _
@[simp] theorem writeU32_length (v : UInt32) : (writeU32 v).length = 4 := encode_length 4 _
@[simp] theorem writeU64_length (v : UInt64) : (writeU64 v).length = 8 := encode_length 8 _

@[simp] theorem readU16_writeU16 (v : UInt16) : readU16 (writeU16 v) = v := by
  have fits : v.toNat < 256 ^ 2 := v.toNat_lt
  rw [readU16, writeU16, value_encode, Nat.mod_eq_of_lt fits]
  exact UInt16.ofNat_toNat

@[simp] theorem readU32_writeU32 (v : UInt32) : readU32 (writeU32 v) = v := by
  have fits : v.toNat < 256 ^ 4 := v.toNat_lt
  rw [readU32, writeU32, value_encode, Nat.mod_eq_of_lt fits]
  exact UInt32.ofNat_toNat

@[simp] theorem readU64_writeU64 (v : UInt64) : readU64 (writeU64 v) = v := by
  have fits : v.toNat < 256 ^ 8 := v.toNat_lt
  rw [readU64, writeU64, value_encode, Nat.mod_eq_of_lt fits]
  exact UInt64.ofNat_toNat

theorem writeU16_readU16 {bytes : List UInt8} (width : bytes.length = 2) :
    writeU16 (readU16 bytes) = bytes := by
  have fits : value bytes < 2 ^ 16 := by simpa [width] using value_lt bytes
  rw [writeU16, readU16, UInt16.toNat_ofNat_of_lt' fits, ← width, encode_value]

theorem writeU32_readU32 {bytes : List UInt8} (width : bytes.length = 4) :
    writeU32 (readU32 bytes) = bytes := by
  have fits : value bytes < 2 ^ 32 := by simpa [width] using value_lt bytes
  rw [writeU32, readU32, UInt32.toNat_ofNat_of_lt' fits, ← width, encode_value]

theorem writeU64_readU64 {bytes : List UInt8} (width : bytes.length = 8) :
    writeU64 (readU64 bytes) = bytes := by
  have fits : value bytes < 2 ^ 64 := by simpa [width] using value_lt bytes
  rw [writeU64, readU64, UInt64.toNat_ofNat_of_lt' fits, ← width, encode_value]

end BigEndian
