/-
# What a formula says

Under an assignment of natural numbers to the variables a term has a value and a
formula holds or does not.  The signs have their usual meaning, and a quantifier
ranges over all natural numbers, whatever the assignment gives its variable.

`Formula.freeVars` says what a formula depends on: under assignments that agree on
the free variables it says the same (`Formula.holds_congr`), also where a quantifier
stands in the scope of another of the same variable, or binds nothing.  A quantifier
is where assignments that differ at its variable come to agree there
(`Assignment.AgreeOn.update`).
-/

import Mathlib.Logic.Function.Basic
import Typographical.Formula

namespace Typographical

/-- A natural number for each variable. -/
abbrev Assignment := Variable → Nat

/-- The assignments give the members of a set the same numbers. -/
def Assignment.AgreeOn (σ τ : Assignment) (s : VariableSet) : Prop :=
  ∀ v ∈ s, σ v = τ v

/-- What an operation makes of two numbers. -/
def Operation.apply : Operation → Nat → Nat → Nat
  | sum, m, n => m + n
  | product, m, n => m * n

/-- What a connective makes of two statements. -/
def Connective.join : Connective → Prop → Prop → Prop
  | and, P, Q => P ∧ Q
  | or, P, Q => P ∨ Q
  | implies, P, Q => P → Q

/-- What a quantifier makes of a statement about numbers. -/
def Quantifier.range : Quantifier → (Nat → Prop) → Prop
  | forAll, P => ∀ n, P n
  | thereExists, P => ∃ n, P n

/-- What does not depend on the number is true of all numbers, or of some, when it is true. -/
theorem Quantifier.range_const (q : Quantifier) (P : Prop) : (q.range fun _ => P) ↔ P := by
  cases q with
  | forAll => exact ⟨fun h => h 0, fun h _ => h⟩
  | thereExists => exact ⟨fun ⟨_, h⟩ => h, fun h => ⟨0, h⟩⟩

/-- The value of a term under an assignment. -/
def Term.value (σ : Assignment) : Term → Nat
  | numeral n => n
  | var v => σ v
  | successor q t => t.value σ + q
  | compound op x y => op.apply (x.value σ) (y.value σ)

/-- The formula is true under an assignment. -/
def Formula.Holds : Formula → Assignment → Prop
  | atom x y, σ => x.value σ = y.value σ
  | negation F, σ => ¬F.Holds σ
  | compound c F G, σ => c.join (F.Holds σ) (G.Holds σ)
  | quantification q v F, σ => q.range fun n => F.Holds (Function.update σ v n)

/-! ### Assignments that agree -/

namespace Assignment.AgreeOn

variable {σ τ : Assignment} {s t : VariableSet}

theorem union : σ.AgreeOn τ (s.union t) ↔ σ.AgreeOn τ s ∧ σ.AgreeOn τ t := by
  simp only [AgreeOn, VariableSet.mem_union, or_imp, forall_and]

/-- **Assignments that agree on all members but one agree on the set once both give that one the
same number.** -/
theorem update {v : Variable} (h : σ.AgreeOn τ (s.complement (.singleton v))) (n : Nat) :
    AgreeOn (Function.update σ v n) (Function.update τ v n) s := by
  intro w hw
  by_cases same : w = v
  · subst same
    rw [Function.update_self, Function.update_self]
  · rw [Function.update_of_ne same, Function.update_of_ne same]
    exact h w (VariableSet.mem_complement.mpr ⟨hw, fun e => same (VariableSet.mem_singleton.mp e)⟩)

end Assignment.AgreeOn

/-! ### What a value and a truth value depend on -/

/-- **The value of a term depends on its variables only.** -/
theorem Term.value_congr {σ τ : Assignment} {t : Term} (h : σ.AgreeOn τ t.vars) :
    t.value σ = t.value τ := by
  induction t with
  | numeral n => rfl
  | var v => exact h v (VariableSet.mem_singleton.mpr rfl)
  | successor q t ih => rw [value, value, ih h]
  | compound op x y ihx ihy =>
    obtain ⟨hx, hy⟩ := Assignment.AgreeOn.union.mp h
    rw [value, value, ihx hx, ihy hy]

/-- **Whether a formula holds depends on its free variables only.** -/
theorem Formula.holds_congr {σ τ : Assignment} {F : Formula} (h : σ.AgreeOn τ F.freeVars) :
    F.Holds σ ↔ F.Holds τ := by
  -- under a quantifier the assignments are others, which agree on more
  induction F generalizing σ τ with
  | atom x y =>
    obtain ⟨hx, hy⟩ := Assignment.AgreeOn.union.mp h
    rw [Holds, Holds, Term.value_congr hx, Term.value_congr hy]
  | negation F ih => exact not_congr (ih h)
  | compound c F G ihF ihG =>
    obtain ⟨hF, hG⟩ := Assignment.AgreeOn.union.mp h
    rw [Holds, Holds, ihF hF, ihG hG]
  | quantification q v F ih =>
    have body (n : Nat) : F.Holds (Function.update σ v n) ↔ F.Holds (Function.update τ v n) :=
      ih (h.update n)
    rw [Holds, Holds, funext fun n => propext (body n)]

/-- **A quantifier whose variable is not free says nothing.** -/
theorem Formula.holds_quantification_of_not_mem {q : Quantifier} {v : Variable} {B : Formula}
    (h : v ∉ B.freeVars) (σ : Assignment) : (quantification q v B).Holds σ ↔ B.Holds σ := by
  have same (n : Nat) : B.Holds (Function.update σ v n) ↔ B.Holds σ := by
    refine holds_congr fun w hw => Function.update_of_ne ?_ n σ
    rintro rfl
    exact h hw
  rw [Holds, funext fun n => propext (same n)]
  exact q.range_const (B.Holds σ)

/-- **Free variables carry the meaning.**  Assignments that agree on the variables of a term give it
the same value, and assignments that agree on the free variables of a formula make it true or false
alike, be it well-formed or not. -/
theorem Formula.coincidence :
    (∀ (t : Term) (σ τ : Assignment), σ.AgreeOn τ t.vars → t.value σ = t.value τ) ∧
      ∀ (F : Formula) (σ τ : Assignment), σ.AgreeOn τ F.freeVars → (F.Holds σ ↔ F.Holds τ) :=
  ⟨fun _ _ _ => Term.value_congr, fun _ _ _ => Formula.holds_congr⟩

/-- The hypotheses are met by assignments that differ at a variable which is quantified twice, once
in the scope of the other, and by a term without it. -/
theorem Formula.coincidence_shadowed :
    ∃ (F : Formula) (σ τ : Assignment),
      F = quantification .forAll ⟨"a"⟩ (compound .implies (atom (.var ⟨"a"⟩) (.var ⟨"b"⟩))
        (quantification .thereExists ⟨"a"⟩ (atom (.successor 2 (.var ⟨"a"⟩)) (.var ⟨"c"⟩)))) ∧
      σ ⟨"a"⟩ = 0 ∧ τ ⟨"a"⟩ = 7 ∧
      σ.AgreeOn τ F.freeVars ∧ (F.Holds σ ↔ F.Holds τ) ∧
      Term.value σ (.successor 2 (.var ⟨"b"⟩)) = Term.value τ (.successor 2 (.var ⟨"b"⟩)) := by
  let σ : Assignment := fun v => if v = ⟨"a"⟩ then 0 else 5
  let τ : Assignment := fun v => if v = ⟨"a"⟩ then 7 else 5
  have formula : σ.AgreeOn τ (freeVars (quantification .forAll ⟨"a"⟩
      (compound .implies (atom (.var ⟨"a"⟩) (.var ⟨"b"⟩))
        (quantification .thereExists ⟨"a"⟩
          (atom (.successor 2 (.var ⟨"a"⟩)) (.var ⟨"c"⟩)))))) := by
    show ∀ v ∈ VariableSet.members _, σ v = τ v
    decide
  have term : σ.AgreeOn τ (Term.vars (.successor 2 (.var ⟨"b"⟩))) := by
    show ∀ v ∈ VariableSet.members _, σ v = τ v
    decide
  exact ⟨_, σ, τ, rfl, rfl, rfl, formula, Formula.coincidence.2 _ σ τ formula,
    Formula.coincidence.1 _ σ τ term⟩

end Typographical
