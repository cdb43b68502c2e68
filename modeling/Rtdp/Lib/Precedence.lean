import Rtdp.Lib.Buffer

/-!
# Rules checked in order

A checker goes through a list of rules and stops at the first one its input
breaks, with an error that reports that rule. `Judges` says that an outcome is
such a verdict; verdicts of successive checks compose, so a checker is judged
against its whole list one check at a time.
-/

/-- When each rule holds, and which errors report that it does not. -/
structure RuleBook (ρ ε : Type) where
  Holds : ρ → Prop
  Reports : ρ → ε → Prop

namespace RuleBook

variable {ρ ε α β : Type} (B : RuleBook ρ ε)

/-- `e` reports the first rule of the list that does not hold. -/
def FirstViolated (rules : List ρ) (e : ε) : Prop :=
  ∃ before r after, rules = before ++ r :: after ∧ (∀ q ∈ before, B.Holds q) ∧ ¬ B.Holds r ∧
    B.Reports r e

/-- The outcome of checking `rules` in order: all hold, or the first that does
not is reported. No check panics. -/
def Judges (rules : List ρ) (post : α → Prop) : Except (Fault ε) α → Prop
  | .ok a => (∀ r ∈ rules, B.Holds r) ∧ post a
  | .error (.err e) => B.FirstViolated rules e
  | .error .panic => False

/-- A call that leaves its buffer as it was and judges the rules. -/
def JudgesOn (buf : List UInt8) (rules : List ρ) (post : α → Prop) (m : BufferM ε α) : Prop :=
  ∃ out, BufferM.exec m buf = (out, buf) ∧ B.Judges rules post out

variable {B} {rules rules' : List ρ} {post : α → Prop} {post' : β → Prop} {e : ε}
  {out : Except (Fault ε) α} {buf : List UInt8}

theorem FirstViolated.append (h : B.FirstViolated rules e) (rules' : List ρ) :
    B.FirstViolated (rules ++ rules') e := by
  obtain ⟨before, r, after, rfl, holds, broken, reports⟩ := h
  exact ⟨before, r, after ++ rules', by simp, holds, broken, reports⟩

theorem FirstViolated.prepend (holds : ∀ r ∈ rules, B.Holds r) (h : B.FirstViolated rules' e) :
    B.FirstViolated (rules ++ rules') e := by
  obtain ⟨before, r, after, rfl, holds', broken, reports⟩ := h
  refine ⟨rules ++ before, r, after, by simp, fun q hq => ?_, broken, reports⟩
  rcases List.mem_append.1 hq with hq | hq
  · exact holds q hq
  · exact holds' q hq

/-- Rules one of which is violated do not all hold. -/
theorem FirstViolated.not_all (h : B.FirstViolated rules e) : ¬ ∀ r ∈ rules, B.Holds r := by
  obtain ⟨before, r, after, rfl, -, broken, -⟩ := h
  intro holds
  exact broken (holds r (by simp))

/-- A list has one first rule that does not hold. -/
theorem first_unique {before before' after after' : List ρ} {r r' : ρ}
    (same : before ++ r :: after = before' ++ r' :: after') (holds : ∀ q ∈ before, B.Holds q)
    (broken : ¬ B.Holds r) (holds' : ∀ q ∈ before', B.Holds q) (broken' : ¬ B.Holds r') : r = r' := by
  rcases List.append_eq_append_iff.1 same with ⟨mid, hbefore, hrest⟩ | ⟨mid, hbefore, hrest⟩
  · cases mid with
    | nil => exact (List.cons.inj hrest).1
    | cons q mid =>
      obtain ⟨rfl, -⟩ := List.cons.inj hrest
      exact absurd (holds' r (by simp [hbefore])) broken
  · cases mid with
    | nil => exact (List.cons.inj hrest).1.symm
    | cons q mid =>
      obtain ⟨rfl, -⟩ := List.cons.inj hrest
      exact absurd (holds r' (by simp [hbefore])) broken'

/-! ## Verdicts of single checks -/

theorem Judges.pass {a : α} (hp : post a) : B.Judges [] post (.ok a) := ⟨by simp, hp⟩

theorem Judges.ok {r : ρ} {a : α} (holds : B.Holds r) (hp : post a) :
    B.Judges [r] post (.ok a) := ⟨by simpa using holds, hp⟩

theorem Judges.broken {r : ρ} (broken : ¬ B.Holds r) (reports : B.Reports r e) :
    B.Judges [r] post (.error (.err e)) :=
  ⟨[], r, [], rfl, by simp, broken, reports⟩

/-! ## Composition -/

/-- A failed check is the verdict on any longer list. -/
theorem Judges.stop {fault : Fault ε} (h : B.Judges rules post (.error fault)) :
    B.Judges (rules ++ rules') post' (.error fault) := by
  cases fault with
  | err e => exact FirstViolated.append h rules'
  | panic => exact h

/-- Rules that hold may stand before those a check judges. -/
theorem Judges.prepend {out : Except (Fault ε) β} (holds : ∀ r ∈ rules, B.Holds r)
    (h : B.Judges rules' post' out) : B.Judges (rules ++ rules') post' out := by
  rcases out with (e | _) | b
  · exact FirstViolated.prepend holds h
  · exact h
  · refine ⟨fun r hr => ?_, h.2⟩
    rcases List.mem_append.1 hr with hr | hr
    · exact holds r hr
    · exact h.1 r hr

theorem Judges.bind {f : α → Except (Fault ε) β} (h : B.Judges rules post out)
    (next : ∀ a, (∀ r ∈ rules, B.Holds r) → post a → B.Judges rules' post' (f a)) :
    B.Judges (rules ++ rules') post' (out >>= f) := by
  rcases out with fault | a
  · exact h.stop
  · exact (next a h.1 h.2).prepend h.1

theorem Judges.mono {post' : α → Prop} (h : B.Judges rules post out)
    (weaken : ∀ a, (∀ r ∈ rules, B.Holds r) → post a → post' a) : B.Judges rules post' out := by
  rcases out with (e | _) | a
  · exact h
  · exact h
  · exact ⟨h.1, weaken a h.1 h.2⟩

theorem JudgesOn.lift (h : B.Judges rules post out) : B.JudgesOn buf rules post (liftM out) :=
  ⟨out, BufferM.exec_lift out buf, h⟩

theorem JudgesOn.bind {m : BufferM ε α} {f : α → BufferM ε β} (h : B.JudgesOn buf rules post m)
    (next : ∀ a, (∀ r ∈ rules, B.Holds r) → post a → B.JudgesOn buf rules' post' (f a)) :
    B.JudgesOn buf (rules ++ rules') post' (m >>= f) := by
  obtain ⟨out, hexec, judged⟩ := h
  rcases out with fault | a
  · refine ⟨.error fault, BufferM.exec_bind_error hexec, ?_⟩
    exact judged.stop
  · obtain ⟨out', hexec', judged'⟩ := next a judged.1 judged.2
    refine ⟨out', ?_, ?_⟩
    · rw [BufferM.exec_bind_ok hexec, hexec']
    · exact judged'.prepend judged.1

/-- A call that reads its buffer first. -/
theorem JudgesOn.get_bind {f : List UInt8 → BufferM ε β} (h : B.JudgesOn buf rules post' (f buf)) :
    B.JudgesOn buf rules post' (get >>= f) := by
  obtain ⟨out, hexec, judged⟩ := h
  exact ⟨out, by rw [BufferM.exec_bind_ok (BufferM.exec_get buf), hexec], judged⟩

/-- A lifted call that returns. -/
theorem JudgesOn.ok_bind {a : α} {f : α → BufferM ε β} (h : B.JudgesOn buf rules post' (f a)) :
    B.JudgesOn buf rules post' (liftM (.ok a : Except (Fault ε) α) >>= f) := by
  obtain ⟨out, hexec, judged⟩ := h
  exact ⟨out, by rw [BufferM.exec_bind_ok (BufferM.exec_lift _ buf), hexec], judged⟩

theorem JudgesOn.pass {a : α} (hp : post a) : B.JudgesOn buf [] post (pure a) :=
  ⟨.ok a, rfl, .pass hp⟩

/-! ## Guards -/

/-- A guard that stops when `r` is broken. Later checks may still break `r`. -/
theorem Judges.guard {r : ρ} {c : Prop} [Decidable c] (breaks : c → ¬ B.Holds r)
    (reports : c → B.Reports r e) (next : ¬ c → B.Judges (r :: rules) post out) :
    B.Judges (r :: rules) post (if c then throw (.err e) else out) := by
  by_cases hc : c
  · rw [if_pos hc]
    exact ⟨[], r, rules, rfl, by simp, breaks hc, reports hc⟩
  · rw [if_neg hc]
    exact next hc

/-- A guard that decides `r`. -/
theorem Judges.check {r : ρ} {c : Prop} [Decidable c] (decides : ¬ c ↔ B.Holds r)
    (reports : c → B.Reports r e) (next : ¬ c → B.Judges rules post out) :
    B.Judges (r :: rules) post (if c then throw (.err e) else out) :=
  Judges.guard (fun hc holds => decides.2 holds hc) reports fun hc =>
    Judges.prepend (List.forall_mem_singleton.2 (decides.1 hc)) (next hc)

/-! ## What a verdict says -/

/-- The check passes exactly when every rule holds. -/
theorem Judges.ok_iff (h : B.Judges rules post out) :
    (∃ a, out = .ok a) ↔ ∀ r ∈ rules, B.Holds r := by
  rcases out with (e | _) | a
  · simpa using FirstViolated.not_all h
  · exact h.elim
  · simpa using h.1

/-- A failed check is no panic, and reports the first violated rule. -/
theorem Judges.error {fault : Fault ε} (h : B.Judges rules post out) (failed : out = .error fault) :
    ∃ e, fault = .err e ∧ B.FirstViolated rules e := by
  subst failed
  cases fault with
  | err e => exact ⟨e, rfl, h⟩
  | panic => exact h.elim

end RuleBook
