import Rtdp.Lib.Runs
import Mathlib.Data.UInt

/-!
# Checked `u64` arithmetic

A checked operation stops where the `u64` operation would leave its range.
`Guarded` says of a computation what it takes not to stop, and what it returns
then; its rules follow the shape of the computation.
-/

namespace Checked

/-- `a + b`, or nothing above `2^64 - 1`. -/
def add (a b : UInt64) : Option UInt64 := if a.toNat + b.toNat < 2 ^ 64 then some (a + b) else none

/-- `a - b`, or nothing below zero. -/
def sub (a b : UInt64) : Option UInt64 := if b ≤ a then some (a - b) else none

variable {α β σ ι : Type}

/-- `m` returns `a` if `safe`, and stops otherwise. -/
structure Guarded (m : Option α) (safe : Prop) (a : α) : Prop where
  returns : safe → m = some a
  stops : ¬ safe → m = none

namespace Guarded

variable {m m' : Option α} {safe safe' : Prop} {a a' : α}

theorem isSome_iff (h : Guarded m safe a) : m.isSome ↔ safe := by
  by_cases hs : safe
  · simp [h.returns hs, hs]
  · simp [h.stops hs, hs]

theorem pure (a : α) : Guarded (some a) True a :=
  ⟨fun _ => rfl, fun h => absurd trivial h⟩

theorem congr (h : Guarded m safe a) (iff : safe ↔ safe') : Guarded m safe' a :=
  ⟨fun hs => h.returns (iff.mpr hs), fun hs => h.stops (mt iff.mp hs)⟩

theorem bind {f : α → Option β} {b : β} (h : Guarded m safe a) (hf : Guarded (f a) safe' b) :
    Guarded (m >>= f) (safe ∧ safe') b := by
  constructor
  · rintro ⟨hs, hs'⟩
    rw [h.returns hs]
    exact hf.returns hs'
  · intro hs
    by_cases hm : safe
    · rw [h.returns hm]
      exact hf.stops fun hs' => hs ⟨hm, hs'⟩
    · rw [h.stops hm]
      rfl

/-- A computation that goes on without arithmetic. -/
theorem map {f : α → Option β} {b : β} (h : Guarded m safe a) (hf : f a = some b) :
    Guarded (m >>= f) safe b := by
  have hpure : Guarded (f a) True b := hf ▸ .pure b
  exact (h.bind hpure).congr (and_iff_left trivial)

/-- The branch taken when a condition fails. -/
theorem otherwise {p : Prop} [Decidable p] (hp : ¬ p) (h : Guarded m safe a) :
    Guarded (if p then m' else m) safe (if p then a' else a) := by
  rwa [if_neg hp, if_neg hp]

theorem add (a b : UInt64) : Guarded (Checked.add a b) (a.toNat + b.toNat < 2 ^ 64) (a + b) :=
  ⟨fun h => if_pos h, fun h => if_neg h⟩

theorem sub (a b : UInt64) : Guarded (Checked.sub a b) (b ≤ a) (a - b) :=
  ⟨fun h => if_pos h, fun h => if_neg h⟩

/-- A computation that counts, and goes on without arithmetic. -/
theorem succ {n : UInt64} {f : UInt64 → Option α} (hf : f (n + 1) = some a) :
    Guarded (do f (← Checked.add n 1)) (n.toNat + 1 < 2 ^ 64) a :=
  (add n 1).map hf

/-- **Run**: a run of checked steps goes through exactly if each step is safe where it is taken. -/
theorem foldlM {step : σ → ι → σ} {checked : σ → ι → Option σ} {safe : σ → ι → Prop} (Inv : σ → Prop)
    (keep : ∀ s i, Inv s → Inv (step s i))
    (guarded : ∀ s i, Inv s → Guarded (checked s i) (safe s i) (step s i)) {s : σ} (init : Inv s)
    (is : List ι) : Guarded (is.foldlM checked s) (Runs.Each step safe s is) (Runs.run step s is) := by
  induction is generalizing s with
  | nil => exact .pure s
  | cons i is ih =>
    rw [List.foldlM_cons]
    exact (guarded s i init).bind (ih (keep s i init))

end Guarded

end Checked
