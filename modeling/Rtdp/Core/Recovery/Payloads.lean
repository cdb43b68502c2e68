import Rtdp.Core.Recovery.Engine

/-!
# The payloads of replay traffic

A REPLAY_REQUEST and a REPLAY_UNAVAILABLE carry three numbers each, eight bytes
a number. What one side encodes the other decodes.
-/

namespace Rtdp
open BigEndian BufferM

/-- Three numbers, one behind the other. -/
def threeWords (a b c : UInt64) : List UInt8 := writeU64 a ++ writeU64 b ++ writeU64 c

section ThreeWords

variable {a b c : UInt64}

@[simp] theorem threeWords_length : (threeWords a b c).length = 24 := by
  simp [threeWords]

theorem threeWords_first : ((threeWords a b c).drop 0).take 8 = writeU64 a := by
  rw [threeWords, List.append_assoc, List.drop_zero, List.take_left' (writeU64_length a)]

theorem threeWords_second : ((threeWords a b c).drop 8).take 8 = writeU64 b := by
  rw [threeWords, List.append_assoc, List.drop_left' (writeU64_length a), List.take_left' (writeU64_length b)]

theorem threeWords_third : ((threeWords a b c).drop 16).take 8 = writeU64 c := by
  have front : (writeU64 a ++ writeU64 b).length = 16 := by simp
  rw [threeWords, List.drop_left' front, List.take_of_length_le (by simp)]

/-- Three stores into a buffer of 24 bytes. -/
theorem exec_store_three {ε : Type} (a b c : UInt64) {buf : List UInt8} (room : buf.length = 24) :
    exec (do
      store 0 8 (writeU64 a)
      store 8 16 (writeU64 b)
      store 16 24 (writeU64 c) : BufferM ε Unit) buf = (.ok (), threeWords a b c) := by
  have first : exec (store 0 8 (writeU64 a) : BufferM ε Unit) ([] ++ buf.drop 0) =
      (.ok (), [] ++ writeU64 a ++ buf.drop 8) :=
    exec_store_next rfl (by simp) (by omega)
  rw [List.nil_append, List.nil_append, List.drop_zero] at first
  have second : exec (store 8 16 (writeU64 b) : BufferM ε Unit) (writeU64 a ++ buf.drop 8) =
      (.ok (), writeU64 a ++ writeU64 b ++ buf.drop 16) :=
    exec_store_next (by simp) (by simp) (by omega)
  have third : exec (store 16 24 (writeU64 c) : BufferM ε Unit)
      (writeU64 a ++ writeU64 b ++ buf.drop 16) =
      (.ok (), writeU64 a ++ writeU64 b ++ writeU64 c ++ buf.drop 24) :=
    exec_store_next (by simp) (by simp) (by omega)
  rw [exec_bind_ok first, exec_bind_ok second, third, List.drop_of_length_le (by omega), List.append_nil]
  rfl

end ThreeWords

namespace ReplayRequestPayload

theorem exec_encode (self : ReplayRequestPayload) {dst : List UInt8} (room : dst.length = 24) :
    exec self.encode dst = (.ok (), threeWords self.requestId self.fromSequence self.toSequence) := by
  refine (exec_bind_ok (exec_get dst)).trans ?_
  refine (exec_else (Nat.not_lt.2 room.ge)).trans ?_
  exact exec_store_three _ _ _ room

theorem decode_eq {src : List UInt8} (h : 24 ≤ src.length)
    (ordered : ¬ readU64 ((src.drop 8).take 8) > readU64 ((src.drop 16).take 8)) :
    decode src = .ok
      { requestId := readU64 ((src.drop 0).take 8)
        fromSequence := readU64 ((src.drop 8).take 8)
        toSequence := readU64 ((src.drop 16).take 8) } := by
  rw [decode, if_neg (Nat.not_lt.2 h)]
  simp (disch := omega) only [slice_eq, bind, Except.bind]
  rw [if_neg ordered]
  rfl

theorem decode_threeWords {self : ReplayRequestPayload} (ordered : self.fromSequence ≤ self.toSequence) :
    decode (threeWords self.requestId self.fromSequence self.toSequence) = .ok self := by
  have hordered : ¬ self.fromSequence > self.toSequence := UInt64.not_lt.mpr ordered
  rw [decode_eq threeWords_length.ge]
  · rw [threeWords_first, threeWords_second, threeWords_third]
    simp only [readU64_writeU64]
  · rwa [threeWords_second, threeWords_third, readU64_writeU64, readU64_writeU64]

/-- What decodes is whole, and an interval. -/
theorem decode_ok {src : List UInt8} {req : ReplayRequestPayload} (h : decode src = .ok req) :
    24 ≤ src.length ∧ req.fromSequence ≤ req.toSequence := by
  have long : 24 ≤ src.length := by
    by_contra short
    rw [decode, if_pos (Nat.lt_of_not_le short)] at h
    cases h
  refine ⟨long, ?_⟩
  by_cases ordered : readU64 ((src.drop 8).take 8) > readU64 ((src.drop 16).take 8)
  · rw [decode, if_neg (Nat.not_lt.2 long)] at h
    simp (disch := omega) only [slice_eq, bind, Except.bind] at h
    rw [if_pos ordered] at h
    cases h
  · rw [decode_eq long ordered] at h
    cases h
    exact UInt64.not_lt.mp ordered

end ReplayRequestPayload

namespace ReplayUnavailablePayload

theorem exec_encode (self : ReplayUnavailablePayload) {dst : List UInt8} (room : dst.length = 24) :
    exec self.encode dst =
      (.ok (), threeWords self.requestId self.firstUnavailable self.lastUnavailable) := by
  refine (exec_bind_ok (exec_get dst)).trans ?_
  refine (exec_else (Nat.not_lt.2 room.ge)).trans ?_
  exact exec_store_three _ _ _ room

theorem decode_eq {src : List UInt8} (h : 24 ≤ src.length) :
    decode src = .ok
      { requestId := readU64 ((src.drop 0).take 8)
        firstUnavailable := readU64 ((src.drop 8).take 8)
        lastUnavailable := readU64 ((src.drop 16).take 8) } := by
  rw [decode, if_neg (Nat.not_lt.2 h)]
  simp (disch := omega) only [slice_eq, bind, Except.bind]
  rfl

theorem decode_threeWords (self : ReplayUnavailablePayload) :
    decode (threeWords self.requestId self.firstUnavailable self.lastUnavailable) = .ok self := by
  rw [decode_eq threeWords_length.ge, threeWords_first, threeWords_second, threeWords_third]
  simp only [readU64_writeU64]

end ReplayUnavailablePayload

end Rtdp
