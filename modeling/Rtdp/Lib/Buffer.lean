import Mathlib.Data.List.Basic
import Mathlib.Tactic

/-!
# Fallible calls on byte buffers

A call returns a value, reports an error, or panics. Reading or writing a
slice outside its buffer panics. `BufferM` is the monad of calls that mutate
one buffer: what was written stays written when the call fails later.
-/

/-- How a call ends when it returns no value. -/
inductive Fault (ε : Type) where
  | err (e : ε)
  | panic
  deriving DecidableEq, Repr

/-- The bytes `bytes[start..stop]`. -/
def slice {ε : Type} (bytes : List UInt8) (start stop : Nat) : Except (Fault ε) (List UInt8) :=
  if start ≤ stop ∧ stop ≤ bytes.length then .ok ((bytes.drop start).take (stop - start))
  else .error .panic

theorem slice_eq {ε : Type} {bytes : List UInt8} {start stop : Nat} (h : start ≤ stop)
    (h' : stop ≤ bytes.length) :
    slice (ε := ε) bytes start stop = .ok ((bytes.drop start).take (stop - start)) :=
  if_pos ⟨h, h'⟩

/-- The byte `bytes[i]`. -/
def byteAt {ε : Type} (bytes : List UInt8) (i : Nat) : Except (Fault ε) UInt8 :=
  match bytes[i]? with
  | some byte => .ok byte
  | none => .error .panic

theorem byteAt_eq {ε : Type} {bytes : List UInt8} {i : Nat} (h : i < bytes.length) :
    byteAt (ε := ε) bytes i = .ok bytes[i] := by
  simp [byteAt, h]

/-- `bytes` with `src` in place of `bytes[start..stop]`. -/
def patch (bytes : List UInt8) (start stop : Nat) (src : List UInt8) : List UInt8 :=
  bytes.take start ++ src ++ bytes.drop stop

section Patch

variable {bytes src : List UInt8} {start stop : Nat}

theorem length_patch (h : start ≤ stop) (h' : stop ≤ bytes.length) (width : src.length = stop - start) :
    (patch bytes start stop src).length = bytes.length := by
  simp only [patch, List.length_append, List.length_take, List.length_drop]
  omega

/-- Only the last patch of a range is left. -/
theorem patch_patch (h : start ≤ stop) (h' : stop ≤ bytes.length) (width : src.length = stop - start)
    (src' : List UInt8) :
    patch (patch bytes start stop src) start stop src' = patch bytes start stop src' := by
  have front : (bytes.take start).length = start := by
    rw [List.length_take]
    omega
  have behind : (bytes.take start ++ src).length = stop := by
    rw [List.length_append]
    omega
  have taken : (patch bytes start stop src).take start = bytes.take start := by
    rw [patch, List.append_assoc]
    nth_rewrite 1 [← front]
    exact List.take_left
  have dropped : (patch bytes start stop src).drop stop = bytes.drop stop := by
    rw [patch]
    nth_rewrite 1 [← behind]
    exact List.drop_left
  rw [patch, taken, dropped, patch]

/-- Writing back what is there changes nothing. -/
theorem patch_self (h : start ≤ stop) :
    patch bytes start stop ((bytes.drop start).take (stop - start)) = bytes := by
  have rest : bytes.drop stop = (bytes.drop start).drop (stop - start) := by
    rw [List.drop_drop, Nat.add_sub_cancel' h]
  rw [patch, rest, List.append_assoc, List.take_append_drop, List.take_append_drop]

end Patch

/-- Calls that mutate one byte buffer. -/
abbrev BufferM (ε : Type) := ExceptT (Fault ε) (StateM (List UInt8))

namespace BufferM

variable {ε α β : Type}

/-- The outcome of a call on `buf`, and the buffer it leaves. -/
def exec (m : BufferM ε α) (buf : List UInt8) : Except (Fault ε) α × List UInt8 :=
  StateT.run (ExceptT.run m) buf

/-- `buf[start..stop].copy_from_slice(src)`. -/
def store (start stop : Nat) (src : List UInt8) : BufferM ε Unit := do
  let buf ← get
  if start ≤ stop ∧ stop ≤ buf.length ∧ src.length = stop - start then
    set (patch buf start stop src)
  else throw .panic

/-- Run a call on `buf[..n]`. -/
def onPrefix (n : Nat) (m : BufferM ε α) : BufferM ε α :=
  ExceptT.mk fun buf =>
    if n ≤ buf.length then
      let (result, front) := exec m (buf.take n)
      (result, front ++ buf.drop n)
    else (.error .panic, buf)

/-- Run a call on `buf[n..]`. -/
def onSuffix (n : Nat) (m : BufferM ε α) : BufferM ε α :=
  ExceptT.mk fun buf =>
    if n ≤ buf.length then
      let (result, back) := exec m (buf.drop n)
      (result, buf.take n ++ back)
    else (.error .panic, buf)

@[simp] theorem exec_pure (a : α) (buf : List UInt8) :
    exec (pure a : BufferM ε α) buf = (.ok a, buf) := rfl

theorem exec_bind (m : BufferM ε α) (f : α → BufferM ε β) (buf : List UInt8) :
    exec (m >>= f) buf =
      match exec m buf with
      | (.ok a, buf) => exec (f a) buf
      | (.error e, buf) => (.error e, buf) := by
  unfold exec ExceptT.run StateT.run
  simp only [bind, ExceptT.bind, ExceptT.mk, StateT.bind, ExceptT.bindCont]
  rcases m buf with ⟨_ | _, _⟩ <;> rfl

/-- A bind whose first call returns. -/
theorem exec_bind_ok {m : BufferM ε α} {f : α → BufferM ε β} {buf buf' : List UInt8} {a : α}
    (h : exec m buf = (.ok a, buf')) : exec (m >>= f) buf = exec (f a) buf' := by
  rw [exec_bind, h]

/-- A bind whose first call fails. -/
theorem exec_bind_error {m : BufferM ε α} {f : α → BufferM ε β} {buf buf' : List UInt8}
    {e : Fault ε} (h : exec m buf = (.error e, buf')) :
    exec (m >>= f) buf = (.error e, buf') := by
  rw [exec_bind, h]

@[simp] theorem exec_get (buf : List UInt8) :
    exec (get : BufferM ε (List UInt8)) buf = (.ok buf, buf) := rfl

@[simp] theorem exec_throw (e : Fault ε) (buf : List UInt8) :
    exec (throw e : BufferM ε α) buf = (.error e, buf) := rfl

/-- A guard that fires. -/
theorem exec_stop {c : Prop} [Decidable c] {e : Fault ε} {f : PUnit → BufferM ε α} {k : BufferM ε α}
    {buf : List UInt8} (h : c) :
    exec (if c then (throw e : BufferM ε PUnit) >>= f else k) buf = (.error e, buf) := by
  rw [if_pos h, exec_bind_error (exec_throw e buf)]

/-- A guard that does not fire. -/
theorem exec_else {c : Prop} [Decidable c] {m k : BufferM ε α} {buf : List UInt8} (h : ¬ c) :
    exec (if c then m else k) buf = exec k buf := by
  rw [if_neg h]

/-- A call made only when `c`, before the rest. -/
theorem exec_when {c : Prop} [Decidable c] {m : BufferM ε α} {f : α → BufferM ε β} {a : α}
    {buf buf' : List UInt8} (run : c → exec m buf = (.ok a, buf')) (skip : ¬ c → buf = buf') :
    exec (if c then m >>= f else f a) buf = exec (f a) buf' := by
  by_cases hc : c
  · rw [if_pos hc, exec_bind_ok (run hc)]
  · rw [if_neg hc, skip hc]

@[simp] theorem exec_lift (m : Except (Fault ε) α) (buf : List UInt8) :
    exec (liftM m : BufferM ε α) buf = (m, buf) := by
  cases m <;> rfl

theorem exec_store {start stop : Nat} {src buf : List UInt8} (h : start ≤ stop)
    (h' : stop ≤ buf.length) (width : src.length = stop - start) :
    exec (store start stop src : BufferM ε Unit) buf =
      (.ok (), patch buf start stop src) := by
  rw [store, exec_bind_ok (exec_get buf), if_pos ⟨h, h', width⟩]
  rfl

/-- Writing the next bytes behind a written front. -/
theorem exec_store_next {start stop : Nat} {front src buf : List UInt8} (at_end : front.length = start)
    (width : stop = start + src.length) (room : stop ≤ buf.length) :
    exec (store start stop src : BufferM ε Unit) (front ++ buf.drop start) =
      (.ok (), front ++ src ++ buf.drop stop) := by
  subst at_end
  rw [exec_store (by omega) (by simp; omega) (by omega), patch, List.take_left, width,
    List.drop_append, List.drop_of_length_le (by omega), List.nil_append, List.drop_drop]
  congr 3
  omega

theorem exec_onPrefix {n : Nat} {m : BufferM ε α} {buf : List UInt8} (h : n ≤ buf.length) :
    exec (onPrefix n m) buf =
      ((exec m (buf.take n)).1, (exec m (buf.take n)).2 ++ buf.drop n) := by
  change (if n ≤ buf.length then _ else _) = _
  rw [if_pos h]
  rfl

theorem exec_onSuffix {n : Nat} {m : BufferM ε α} {buf : List UInt8} (h : n ≤ buf.length) :
    exec (onSuffix n m) buf =
      ((exec m (buf.drop n)).1, buf.take n ++ (exec m (buf.drop n)).2) := by
  change (if n ≤ buf.length then _ else _) = _
  rw [if_pos h]
  rfl

end BufferM
