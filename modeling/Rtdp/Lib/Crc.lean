import Mathlib.Data.UInt
import Mathlib.Data.Nat.Digits.Defs
import Mathlib.Tactic

/-!
# Reflected cyclic redundancy checks

A register of `w` bits takes in a message byte by byte, lowest bit first: the
byte is added to the low end of the register, and eight bits are shifted out.
Shifting is linear, and one to one as long as the polynomial has its constant
term, the top bit here. So two messages that differ only within `w` bits in a
row have different checksums.
-/

/-- A check of width `w`: its reflected polynomial, the register before the first byte, and what is
added to it after the last. -/
structure Crc (w : Nat) where
  poly : BitVec w
  init : BitVec w
  xorOut : BitVec w
  /-- The polynomial has its constant term. -/
  constant_term : poly.msb = true

namespace Crc

variable {w : Nat} (crc : Crc w)

/-- The lowest bit leaves the register; if it is set, the polynomial is added. -/
def shift (reg : BitVec w) : BitVec w :=
  if reg.getLsbD 0 then (reg >>> 1) ^^^ crc.poly else reg >>> 1

def shifts : Nat → BitVec w → BitVec w
  | 0, reg => reg
  | n + 1, reg => shifts n (crc.shift reg)

def feedByte (reg : BitVec w) (byte : UInt8) : BitVec w :=
  crc.shifts 8 (reg ^^^ BitVec.ofNat w byte.toNat)

/-- The register after the bytes. -/
def feed (reg : BitVec w) (bytes : List UInt8) : BitVec w := bytes.foldl crc.feedByte reg

def checksum (bytes : List UInt8) : BitVec w := crc.feed crc.init bytes ^^^ crc.xorOut

variable {crc} {reg a b : BitVec w} {n : Nat}

/-! ## Shifting is linear and one to one -/

theorem shift_xor (a b : BitVec w) : crc.shift (a ^^^ b) = crc.shift a ^^^ crc.shift b := by
  unfold shift
  rw [BitVec.getLsbD_xor, BitVec.ushiftRight_xor_distrib]
  cases a.getLsbD 0 <;> cases b.getLsbD 0
  · rfl
  · simp [BitVec.xor_assoc]
  · simp only [Bool.xor_false, if_true, Bool.false_eq_true, if_false]
    rw [BitVec.xor_assoc, BitVec.xor_assoc, BitVec.xor_comm crc.poly]
  · simp only [Bool.xor_true, Bool.not_true, Bool.false_eq_true, if_false, if_true]
    rw [BitVec.xor_assoc, BitVec.xor_comm (b >>> 1), ← BitVec.xor_assoc crc.poly, BitVec.xor_self,
      BitVec.zero_xor]

theorem shifts_xor (n : Nat) (a b : BitVec w) :
    crc.shifts n (a ^^^ b) = crc.shifts n a ^^^ crc.shifts n b := by
  induction n generalizing a b with
  | zero => rfl
  | succ n ih => rw [shifts, shift_xor, ih]; rfl

theorem shifts_add (m n : Nat) (reg : BitVec w) :
    crc.shifts (m + n) reg = crc.shifts n (crc.shifts m reg) := by
  induction m generalizing reg with
  | zero => rw [Nat.zero_add]; rfl
  | succ m ih => rw [Nat.succ_add, shifts, ih]; rfl

/-- The top bit tells whether the polynomial was added. -/
theorem msb_shift (reg : BitVec w) : (crc.shift reg).msb = reg.getLsbD 0 := by
  have top : (reg >>> 1).msb = false := by simp [BitVec.msb_ushiftRight]
  unfold shift
  split
  · rename_i set
    rw [BitVec.msb_xor, top, crc.constant_term, set]
    rfl
  · rename_i unset
    rw [top]
    simpa using unset

theorem shift_injective (h : crc.shift a = crc.shift b) : a = b := by
  have low : a.getLsbD 0 = b.getLsbD 0 := by
    have top := congrArg BitVec.msb h
    rwa [msb_shift, msb_shift] at top
  have rest : a >>> 1 = b >>> 1 := by
    unfold shift at h
    rw [low] at h
    split at h
    · exact (BitVec.xor_left_inj crc.poly).mp h
    · exact h
  apply BitVec.eq_of_getLsbD_eq
  intro i hi
  cases i with
  | zero => exact low
  | succ i =>
    have bit := congrArg (·.getLsbD i) rest
    simpa [BitVec.getLsbD_ushiftRight, Nat.add_comm] using bit

theorem shifts_injective (h : crc.shifts n a = crc.shifts n b) : a = b := by
  induction n generalizing a b with
  | zero => exact h
  | succ n ih => exact shift_injective (ih h)

/-! ## Bursts -/

/-- A zero bit leaves without a trace. -/
theorem shift_double {x : Nat} (fits : 2 * x < 2 ^ w) :
    crc.shift (BitVec.ofNat w (2 * x)) = BitVec.ofNat w x := by
  have low : (BitVec.ofNat w (2 * x)).getLsbD 0 = false := by simp [BitVec.getLsbD_ofNat]
  rw [shift, if_neg (by simp [low])]
  apply BitVec.eq_of_toNat_eq
  rw [BitVec.toNat_ushiftRight, BitVec.toNat_ofNat, BitVec.toNat_ofNat, Nat.mod_eq_of_lt fits,
    Nat.mod_eq_of_lt (by omega), Nat.shiftRight_one]
  omega

/-- Zero bits at the low end leave first. -/
theorem shifts_mul {x : Nat} (fits : 2 ^ n * x < 2 ^ w) :
    crc.shifts n (BitVec.ofNat w (2 ^ n * x)) = BitVec.ofNat w x := by
  induction n with
  | zero => rw [Nat.pow_zero, Nat.one_mul]; rfl
  | succ n ih =>
    have double : 2 ^ (n + 1) * x = 2 * (2 ^ n * x) := by ring
    rw [double] at fits ⊢
    rw [shifts, shift_double fits, ih (by omega)]

/-- Low bits and high bits do not meet. -/
theorem ofNat_add_mul (k : Nat) {x y : Nat} (low : x < 2 ^ k) :
    BitVec.ofNat w (x + 2 ^ k * y) = BitVec.ofNat w x ^^^ BitVec.ofNat w (2 ^ k * y) := by
  apply BitVec.eq_of_getLsbD_eq
  intro i hi
  have high := Nat.testBit_two_pow_mul_add y (Nat.two_pow_pos k) i
  rw [Nat.add_zero] at high
  rw [BitVec.getLsbD_xor, BitVec.getLsbD_ofNat, BitVec.getLsbD_ofNat, BitVec.getLsbD_ofNat, Nat.add_comm,
    Nat.testBit_two_pow_mul_add y low, high]
  split
  · simp
  · have unset : x.testBit i = false :=
      Nat.testBit_lt_two_pow (Nat.lt_of_lt_of_le low (Nat.pow_le_pow_right (by omega) (by omega)))
    simp [unset]

/-- The number the bytes spell, least significant byte first. -/
def word (bytes : List UInt8) : Nat := Nat.ofDigits (2 ^ 8) (bytes.map UInt8.toNat)

theorem digit_lt (bytes : List UInt8) : ∀ d ∈ bytes.map UInt8.toNat, d < 2 ^ 8 := by
  intro d hd
  obtain ⟨byte, -, rfl⟩ := List.mem_map.mp hd
  exact byte.toNat_lt

theorem word_lt (bytes : List UInt8) : word bytes < 2 ^ (8 * bytes.length) := by
  have lt := Nat.ofDigits_lt_base_pow_length (by decide) (digit_lt bytes)
  rwa [List.length_map, ← Nat.pow_mul] at lt

theorem word_injective {bs cs : List UInt8} (length : bs.length = cs.length) (h : word bs = word cs) :
    bs = cs := by
  have digits := Nat.ofDigits_inj_of_len_eq (by decide) (by simpa using length) (digit_lt bs) (digit_lt cs) h
  exact List.map_injective_iff.mpr (fun _ _ => UInt8.toNat_inj.mp) digits

/-- Bytes that fit into the register go through it as one word. -/
theorem feed_eq_shifts {bytes : List UInt8} (fits : 8 * bytes.length ≤ w) (reg : BitVec w) :
    crc.feed reg bytes = crc.shifts (8 * bytes.length) (reg ^^^ BitVec.ofNat w (word bytes)) := by
  induction bytes generalizing reg with
  | nil => simp [feed, word, shifts]
  | cons byte bytes ih =>
    rw [List.length_cons] at fits
    have spelled : word (byte :: bytes) = byte.toNat + 2 ^ 8 * word bytes := rfl
    have room : 2 ^ 8 * word bytes < 2 ^ w := by
      calc 2 ^ 8 * word bytes < 2 ^ 8 * 2 ^ (8 * bytes.length) :=
            Nat.mul_lt_mul_of_pos_left (word_lt bytes) (by decide)
        _ = 2 ^ (8 + 8 * bytes.length) := (Nat.pow_add 2 8 _).symm
        _ ≤ 2 ^ w := Nat.pow_le_pow_right (by decide) (by omega)
    have later : crc.shifts 8 (BitVec.ofNat w (2 ^ 8 * word bytes)) = BitVec.ofNat w (word bytes) :=
      shifts_mul room
    calc crc.feed reg (byte :: bytes)
        = crc.shifts (8 * bytes.length) (crc.feedByte reg byte ^^^ BitVec.ofNat w (word bytes)) :=
          ih (by omega) _
      _ = crc.shifts (8 * bytes.length) (crc.shifts 8
            (reg ^^^ BitVec.ofNat w byte.toNat ^^^ BitVec.ofNat w (2 ^ 8 * word bytes))) := by
          rw [← later, feedByte, ← shifts_xor]
      _ = crc.shifts (8 * (byte :: bytes).length) (reg ^^^ BitVec.ofNat w (word (byte :: bytes))) := by
          rw [← shifts_add, BitVec.xor_assoc, ← ofNat_add_mul 8 byte.toNat_lt, ← spelled, List.length_cons,
            Nat.mul_succ, Nat.add_comm]

/-- The bytes of a burst can be told from the register behind it. -/
theorem feed_injective {bs cs : List UInt8} (length : bs.length = cs.length) (fits : 8 * bs.length ≤ w)
    (h : crc.feed reg bs = crc.feed reg cs) : bs = cs := by
  rw [feed_eq_shifts fits, feed_eq_shifts (length ▸ fits), length] at h
  have same := (BitVec.xor_right_inj reg).mp (shifts_injective h)
  have room (bytes : List UInt8) (hb : 8 * bytes.length ≤ w) : word bytes < 2 ^ w :=
    Nat.lt_of_lt_of_le (word_lt bytes) (Nat.pow_le_pow_right (by decide) hb)
  apply word_injective length
  have spelled := congrArg BitVec.toNat same
  rwa [BitVec.toNat_ofNat, BitVec.toNat_ofNat, Nat.mod_eq_of_lt (room bs fits),
    Nat.mod_eq_of_lt (room cs (length ▸ fits))] at spelled

/-- The same bytes behind it keep two registers apart. -/
theorem feed_reg_injective {bytes : List UInt8} (h : crc.feed a bytes = crc.feed b bytes) : a = b := by
  induction bytes generalizing a b with
  | nil => exact h
  | cons byte bytes ih =>
    have step := shifts_injective (ih h)
    exact (BitVec.xor_left_inj _).mp step

/-- **Burst detection**: messages that differ, but only within `w` bits in a row, have different
checksums. -/
theorem checksum_ne_of_burst {xs ys : List UInt8} (length : xs.length = ys.length) {i k : Nat}
    (short : 8 * k ≤ w) (within : ∀ j, xs[j]? ≠ ys[j]? → i ≤ j ∧ j < i + k) (differ : xs ≠ ys) :
    crc.checksum xs ≠ crc.checksum ys := by
  intro same
  apply differ
  have front : xs.take i = ys.take i := by
    apply List.ext_getElem?
    intro j
    rw [List.getElem?_take, List.getElem?_take]
    split
    · by_contra hne
      have := (within j hne).1
      omega
    · rfl
  have back : xs.drop (i + k) = ys.drop (i + k) := by
    apply List.ext_getElem?
    intro j
    rw [List.getElem?_drop, List.getElem?_drop]
    by_contra hne
    have := (within _ hne).2
    omega
  have split (zs : List UInt8) : zs = zs.take i ++ ((zs.drop i).take k ++ zs.drop (i + k)) := by
    rw [← List.drop_drop, List.take_append_drop, List.take_append_drop]
  have burst : (xs.drop i).take k = (ys.drop i).take k := by
    have regs := (BitVec.xor_left_inj crc.xorOut).mp same
    rw [split xs, split ys, front, back] at regs
    simp only [feed, List.foldl_append] at regs
    apply feed_injective
    · simp [length]
    · exact Nat.le_trans (Nat.mul_le_mul_left 8 (List.length_take_le _ _)) short
    · exact feed_reg_injective regs
  rw [split xs, split ys, front, back, burst]

end Crc
