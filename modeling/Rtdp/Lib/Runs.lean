import Mathlib.Data.List.Basic
import Mathlib.Tactic

/-!
# Runs of a deterministic machine

A machine is a function `step : σ → ι → σ`; a run folds it over a list of
inputs. `Each` says that every step of a run meets a condition on the state
before the step and the input. The rules turn a fact about one step into a
fact about whole runs.
-/

namespace Runs

variable {σ ι : Type} (step : σ → ι → σ)

/-- The state after the inputs. -/
def run (s : σ) (inputs : List ι) : σ := inputs.foldl step s

@[simp] theorem run_nil (s : σ) : run step s [] = s := rfl

@[simp] theorem run_cons (s : σ) (i : ι) (is : List ι) :
    run step s (i :: is) = run step (step s i) is := rfl

@[simp] theorem run_append (s : σ) (is js : List ι) :
    run step s (is ++ js) = run step (run step s is) js := List.foldl_append

/-- Every step of the run from `s` meets `cond`. -/
def Each (cond : σ → ι → Prop) : σ → List ι → Prop
  | _, [] => True
  | s, i :: is => cond s i ∧ Each cond (step s i) is

instance decidableEach (cond : σ → ι → Prop) [∀ s i, Decidable (cond s i)] (s : σ) (is : List ι) :
    Decidable (Each step cond s is) :=
  match is with
  | [] => inferInstanceAs (Decidable True)
  | i :: is =>
    have := decidableEach cond (step s i) is
    inferInstanceAs (Decidable (_ ∧ _))

variable {step} {cond : σ → ι → Prop} {s : σ} {is : List ι}

theorem each_append {js : List ι} :
    Each step cond s (is ++ js) ↔ Each step cond s is ∧ Each step cond (run step s is) js := by
  induction is generalizing s with
  | nil => simp [Each]
  | cons i is ih => simp [Each, ih, and_assoc]

/-- `Each` in terms of the ways to split the run at a step. -/
theorem each_iff_split :
    Each step cond s is ↔
      ∀ before i after, is = before ++ i :: after → cond (run step s before) i := by
  constructor
  · rintro h before i after rfl
    exact (each_append.mp h).2.1
  · intro h
    induction is generalizing s with
    | nil => trivial
    | cons i is ih =>
      refine ⟨h [] i is rfl, ih fun before j after heq => ?_⟩
      exact h (i :: before) j after (by rw [heq]; rfl)

theorem Each.mono {cond' : σ → ι → Prop} (h : Each step cond s is)
    (imp : ∀ s i, cond s i → cond' s i) : Each step cond' s is := by
  induction is generalizing s with
  | nil => trivial
  | cons i is ih => exact ⟨imp _ _ h.1, ih h.2⟩

/-- Conditions that agree where the invariant holds. -/
theorem each_congr {P cond' : σ → ι → Prop} (Inv : σ → Prop)
    (keep : ∀ s i, Inv s → P s i → Inv (step s i))
    (agree : ∀ s i, Inv s → P s i → (cond s i ↔ cond' s i)) (init : Inv s)
    (inputs : Each step P s is) : Each step cond s is ↔ Each step cond' s is := by
  induction is generalizing s with
  | nil => rfl
  | cons i is ih =>
    exact and_congr (agree s i init inputs.1) (ih (keep s i init inputs.1) inputs.2)

/-- A condition on inputs alone. -/
theorem each_of_forall {P : ι → Prop} (h : ∀ i ∈ is, P i) : Each step (fun _ i => P i) s is := by
  induction is generalizing s with
  | nil => trivial
  | cons i is ih => exact ⟨h i (by simp), ih fun j hj => h j (by simp [hj])⟩

/-- Conditions that agree where an invariant of every step holds. -/
theorem each_iff {cond' : σ → ι → Prop} (Inv : σ → Prop) (keep : ∀ s i, Inv s → Inv (step s i))
    (agree : ∀ s i, Inv s → (cond s i ↔ cond' s i)) (init : Inv s) :
    Each step cond s is ↔ Each step cond' s is :=
  each_congr Inv (fun s i h _ => keep s i h) (fun s i h _ => agree s i h) init
    (each_of_forall (P := fun _ => True) fun _ _ => trivial)

theorem Each.and {cond' : σ → ι → Prop} (h : Each step cond s is) (h' : Each step cond' s is) :
    Each step (fun s i => cond s i ∧ cond' s i) s is := by
  induction is generalizing s with
  | nil => trivial
  | cons i is ih => exact ⟨⟨h.1, h'.1⟩, ih h.2 h'.2⟩

/-- **Invariant rule**: what each step preserves under the condition holds after
every run whose steps meet the condition. -/
theorem invariant (Inv : σ → Prop) (keep : ∀ s i, Inv s → cond s i → Inv (step s i))
    (init : Inv s) (each : Each step cond s is) : Inv (run step s is) := by
  induction is generalizing s with
  | nil => exact init
  | cons i is ih => exact ih (keep s i init each.1) each.2

/-- What each step preserves, whatever its input. -/
theorem always (Inv : σ → Prop) (keep : ∀ s i, Inv s → Inv (step s i)) (init : Inv s) :
    Inv (run step s is) := by
  induction is generalizing s with
  | nil => exact init
  | cons i is ih => exact ih (keep s i init)

/-- What no step repairs held at the start of a run at whose end it holds. -/
theorem of_run {P : σ → ι → Prop} {good : σ → Prop} (Kept : σ → Prop)
    (persists : ∀ s i, Kept s → P s i → Kept (step s i))
    (unrepaired : ∀ s i, Kept s → P s i → good (step s i) → good s) (init : Kept s)
    (inputs : Each step P s is) : good (run step s is) → good s := by
  induction is generalizing s with
  | nil => exact id
  | cons i is ih =>
    intro h
    exact unrepaired s i init inputs.1 (ih (persists s i init inputs.1) inputs.2 h)

/-- **Equivalence rule**: a property that no step repairs, and that each step keeps exactly under
the condition, holds at the end of exactly the runs whose steps meet the condition. What is `Kept`
holds whether they do or not. -/
theorem iff_each {P : σ → ι → Prop} {good : σ → Prop} (Kept Inv : σ → Prop)
    (persists : ∀ s i, Kept s → P s i → Kept (step s i))
    (unrepaired : ∀ s i, Kept s → P s i → good (step s i) → good s)
    (holds : ∀ s, Inv s → good s)
    (decides : ∀ s i, Kept s → Inv s → P s i → (good (step s i) ↔ cond s i))
    (keep : ∀ s i, Kept s → Inv s → P s i → cond s i → Inv (step s i)) (kept : Kept s) (init : Inv s)
    (inputs : Each step P s is) : good (run step s is) ↔ Each step cond s is := by
  induction is generalizing s with
  | nil => exact iff_of_true (holds s init) trivial
  | cons i is ih =>
    obtain ⟨hi, his⟩ := inputs
    have hkept := persists s i kept hi
    by_cases hcond : cond s i
    · exact (ih hkept (keep s i kept init hi hcond) his).trans (and_iff_right hcond).symm
    · refine iff_of_false (fun h => hcond ?_) fun h => hcond h.1
      exact (decides s i kept init hi).mp (of_run Kept persists unrepaired hkept his h)

variable (step) in
/-- Once `P` holds, it goes on holding and `out` stays what it is, as long as the inputs are
`allowed`. -/
def StableOver {α : Type} (P : σ → Prop) (allowed : ι → Prop) (out : σ → α) (s : σ) (is : List ι) : Prop :=
  ∀ before middle after, is = before ++ middle ++ after → P (run step s before) →
    (∀ i ∈ middle, allowed i) →
    P (run step s (before ++ middle)) ∧ out (run step s (before ++ middle)) = out (run step s before)

/-- **Stability rule**: what is stable over a run is what each of its steps preserves. -/
theorem stableOver_iff {α : Type} {P : σ → Prop} {allowed : ι → Prop} {out : σ → α} :
    StableOver step P allowed out s is ↔
      Each step (fun s i => P s → allowed i → P (step s i) ∧ out (step s i) = out s) s is := by
  constructor
  · intro stable
    rw [each_iff_split]
    rintro before i after rfl hP hi
    have hone := stable before [i] after (by simp) hP (by simpa using hi)
    rwa [run_append] at hone
  · rintro each before middle after rfl hP hmiddle
    rw [each_append, each_append] at each
    obtain ⟨⟨-, each⟩, -⟩ := each
    rw [run_append]
    generalize run step s before = s at each hP ⊢
    induction middle generalizing s with
    | nil => exact ⟨hP, rfl⟩
    | cons i is ih =>
      obtain ⟨hi, his⟩ := List.forall_mem_cons.mp hmiddle
      obtain ⟨hstep, hout⟩ := each.1 hP hi
      obtain ⟨hrun, houts⟩ := ih his (step s i) each.2 hstep
      exact ⟨hrun, houts.trans hout⟩

end Runs
