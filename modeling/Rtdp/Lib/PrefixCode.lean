import Mathlib.Data.List.Basic
import Mathlib.Tactic

/-!
# Records laid end to end

A prefix code writes each record as a nonempty word such that no stream can
start with two different records. Streams of records are then uniquely
readable: a stream is the concatenation of at most one list of records, and
reading from the left meets at most one first place where no acceptable
record starts.
-/

/-- Words for records, uniquely readable from the left. -/
structure PrefixCode (ρ α : Type) where
  word : ρ → List α
  nonempty : ∀ r, word r ≠ []
  unique : ∀ {r r' rest rest'}, word r ++ rest = word r' ++ rest' → r = r' ∧ rest = rest'

namespace PrefixCode

variable {ρ α : Type} (C : PrefixCode ρ α)

/-- The words of `rs` one after the other. -/
def stream (rs : List ρ) : List α := rs.flatMap C.word

@[simp] theorem stream_nil : C.stream [] = [] := rfl

@[simp] theorem stream_cons (r : ρ) (rs : List ρ) :
    C.stream (r :: rs) = C.word r ++ C.stream rs := rfl

/-- A stream is the stream of one list of records. -/
theorem stream_injective : Function.Injective C.stream := by
  intro rs ts heq
  induction rs generalizing ts with
  | nil =>
    cases ts with
    | nil => rfl
    | cons t ts =>
      rw [stream_cons, stream_nil] at heq
      exact absurd (List.append_eq_nil_iff.mp heq.symm).1 (C.nonempty t)
  | cons r rs ih =>
    cases ts with
    | nil =>
      rw [stream_cons, stream_nil] at heq
      exact absurd (List.append_eq_nil_iff.mp heq).1 (C.nonempty r)
    | cons t ts =>
      obtain ⟨rfl, hrest⟩ := C.unique heq
      rw [ih hrest]

/-- `area` is a stream of records that all satisfy `good`. -/
def Tiled (good : ρ → Prop) (area : List α) : Prop :=
  ∃ rs, (∀ r ∈ rs, good r) ∧ area = C.stream rs

/-- `rest` is what remains of `area` where the first record that is not `good`
should start: after good records, nonempty, and no good record starts there. -/
def Stuck (good : ρ → Prop) (area rest : List α) : Prop :=
  ∃ rs, (∀ r ∈ rs, good r) ∧ area = C.stream rs ++ rest ∧ rest ≠ [] ∧
    ∀ r tail, rest = C.word r ++ tail → ¬ good r

variable {C} {good : ρ → Prop}

theorem Tiled.nil : C.Tiled good [] := ⟨[], by simp, rfl⟩

theorem Tiled.cons {r : ρ} {area : List α} (hr : good r) (h : C.Tiled good area) :
    C.Tiled good (C.word r ++ area) := by
  obtain ⟨rs, hrs, rfl⟩ := h
  exact ⟨r :: rs, by simpa using ⟨hr, hrs⟩, rfl⟩

theorem Stuck.cons {r : ρ} {area rest : List α} (hr : good r) (h : C.Stuck good area rest) :
    C.Stuck good (C.word r ++ area) rest := by
  obtain ⟨rs, hrs, rfl, hne, hbad⟩ := h
  exact ⟨r :: rs, by simpa using ⟨hr, hrs⟩, by simp, hne, hbad⟩

/-- Reading from the left, an area ends behind a good record or gets stuck. -/
theorem tiled_or_stuck (good : ρ → Prop) (area : List α) :
    C.Tiled good area ∨ ∃ rest, C.Stuck good area rest := by
  induction hn : area.length using Nat.strong_induction_on generalizing area with
  | _ n ih =>
    by_cases hempty : area = []
    · exact .inl (hempty ▸ Tiled.nil)
    by_cases hstart : ∃ r tail, area = C.word r ++ tail ∧ good r
    · obtain ⟨r, tail, rfl, hr⟩ := hstart
      have hshorter : tail.length < n := by
        have := List.length_pos_of_ne_nil (C.nonempty r)
        rw [List.length_append] at hn
        omega
      rcases ih _ hshorter tail rfl with tiled | ⟨rest, stuck⟩
      · exact .inl (tiled.cons hr)
      · exact .inr ⟨rest, stuck.cons hr⟩
    · exact .inr ⟨area, [], by simp, rfl, hempty, fun r tail heq hr => hstart ⟨r, tail, heq, hr⟩⟩

/-- An area that is stuck somewhere is not tiled. -/
theorem Stuck.not_tiled {area rest : List α} (h : C.Stuck good area rest) :
    ¬ C.Tiled good area := by
  rintro ⟨ts, hts, heq⟩
  obtain ⟨rs, hrs, harea, hne, hbad⟩ := h
  rw [harea] at heq
  clear harea area
  induction rs generalizing ts with
  | nil =>
    cases ts with
    | nil => exact hne heq
    | cons t ts => exact hbad t _ heq (hts t (by simp))
  | cons r rs ih =>
    cases ts with
    | nil =>
      have := C.nonempty r
      simp_all
    | cons t ts =>
      rw [stream_cons, stream_cons, List.append_assoc] at heq
      obtain ⟨-, htail⟩ := C.unique heq
      exact ih ts (fun x hx => hts x (by simp [hx])) htail fun x hx => hrs x (by simp [hx])

/-- The place where an area is stuck is unique. -/
theorem Stuck.rest_unique {area rest rest' : List α} (h : C.Stuck good area rest)
    (h' : C.Stuck good area rest') : rest = rest' := by
  obtain ⟨rs, hrs, harea, hne, hbad⟩ := h
  obtain ⟨ts, hts, harea', hne', hbad'⟩ := h'
  rw [harea] at harea'
  clear harea area
  induction rs generalizing ts with
  | nil =>
    cases ts with
    | nil => exact harea'
    | cons t ts =>
      rw [stream_cons, List.append_assoc] at harea'
      exact absurd (hts t (by simp)) (hbad t _ harea')
  | cons r rs ih =>
    cases ts with
    | nil =>
      rw [stream_cons, List.append_assoc] at harea'
      exact absurd (hrs r (by simp)) (hbad' r _ harea'.symm)
    | cons t ts =>
      rw [stream_cons, stream_cons, List.append_assoc, List.append_assoc] at harea'
      obtain ⟨-, htail⟩ := C.unique harea'
      exact ih (fun x hx => hrs x (by simp [hx])) ts (fun x hx => hts x (by simp [hx])) htail

end PrefixCode
