/-
# Levels and tokens

Levels count the constructs that wait and the one that is due.  A token opens as
many as it begins constructs and closes as many as it completes, and what is due
behind it waits on just the levels that are left (`Due.depth_add_closes`).  So the
levels a token opens are those that `Due.reach` tells by the contexts
(`Due.reach_cases`), no other is open behind it (`Due.depth_next?_le`), and it takes a
reading two levels further at most: one for a formula and one more for the term
that an equation begins with.
-/

import Typographical.Parse.Due
import Typographical.Proofs.Run

namespace Typographical

/-- How many levels are open; none is once the goal is met. -/
def Progress.depth {g : Goal} : Progress g → Nat
  | due c => c.depth
  | done _ => 0

/-- A construct that is due opens a level of its own. -/
def Due.HasLevel {g : Goal} : Due g → Prop
  | formula K => 1 ≤ K.level
  | term K => 1 ≤ K.level
  | _ => True

/-- The same of what a token makes of a reading; nothing is due once the goal is met. -/
def Progress.HasLevel {g : Goal} : Progress g → Prop
  | due c => c.HasLevel
  | done _ => True

/-! ### Filling a hole -/

/-- **A formula closes the levels that are no longer open behind it.** -/
theorem FormulaContext.depth_fill_add_closes (K : FormulaContext) (F : Formula) :
    (K.fill F).depth + K.closes = K.level := by
  induction K generalizing F with
  | outermost level => exact Nat.zero_add level
  | negation K ih =>
    -- the negation is complete too and closes its own level
    have outer := ih (.negation F)
    simp only [fill, closes, level]
    omega
  | compoundLeft K ih => rfl
  | compoundRight G c K ih => rfl
  | quantified q v K ih =>
    have outer := ih (.quantification q v F)
    simp only [fill, closes, level]
    omega

/-- **A term closes the levels that are no longer open behind it.** -/
theorem TermContext.depth_fill_add_closes {g : Goal} (K : TermContext g) (t : Term) :
    (K.fill t).depth + K.closes = K.level := by
  induction K generalizing t with
  | outermost level => exact Nat.zero_add level
  | atomLeft K => rfl
  | atomRight x K =>
    have outer := K.depth_fill_add_closes (.atom x t)
    simp only [fill, closes, level]
    omega
  | successor q K ih =>
    have outer := ih (t.addSuccessors q)
    simp only [fill, closes, level]
    omega
  | operandLeft K ih => rfl
  | operandRight x op K ih => rfl

theorem FormulaContext.hasLevel_fill (K : FormulaContext) (F : Formula) : (K.fill F).HasLevel := by
  induction K generalizing F with
  | negation K ih | quantified q v K ih => exact ih _
  | _ => trivial

theorem TermContext.hasLevel_fill {g : Goal} (K : TermContext g) (t : Term) :
    (K.fill t).HasLevel := by
  induction K generalizing t with
  | atomRight x K => exact K.hasLevel_fill _
  | successor q K ih => exact ih _
  | _ => trivial

/-! ### Taking a token -/

/-- Where a term is due, what is due behind a token waits on the levels that the token leaves. -/
theorem TermContext.depth_add_closedBy {g : Goal} {K : TermContext g} {t : Token} {P : Progress g}
    (h : K.next? t = some P) : P.depth + K.closedBy t.kind = K.level ∧ P.HasLevel := by
  obtain ⟨kind, s⟩ := t
  cases kind <;> simp only [TermContext.next?, Option.some.injEq, reduceCtorEq] at h <;> subst h
  case zero => exact ⟨K.depth_fill_add_closes (.numeral 0), K.hasLevel_fill (.numeral 0)⟩
  case variableName => exact ⟨K.depth_fill_add_closes (.var ⟨s⟩), K.hasLevel_fill (.var ⟨s⟩)⟩
  all_goals exact ⟨rfl, Nat.le_add_left ..⟩

/-- **A token that is taken opens and closes the levels by which what is due behind it differs,**
and a construct that is due behind it opens a level again. -/
theorem Due.depth_add_closes {g : Goal} {c : Due g} {t : Token} {P : Progress g}
    (level : c.HasLevel) (h : c.next? t = some P) :
    P.depth + c.closes t.kind = c.depth + c.opens t.kind ∧ P.HasLevel := by
  cases c with
  | formula K =>
    simp only [HasLevel] at level
    cases hb : t.kind.beginsConstruct with
    | false =>
      rw [Due.next?_formula_of_beginsConstruct hb] at h
      obtain ⟨balance, below⟩ := TermContext.depth_add_closedBy (K := .atomLeft K) h
      simp only [TermContext.level] at balance
      simp only [closes, depth, opens, hb, Bool.false_eq_true, if_false]
      exact ⟨by omega, below⟩
    | true =>
      have opened : P.depth = K.level ∧ (Due.formula K).closes t.kind = 0 ∧ P.HasLevel := by
        obtain ⟨kind, s⟩ := t
        cases kind <;> cases hb <;> cases h
        case negation | openAngle => exact ⟨rfl, rfl, Nat.le_add_left ..⟩
        all_goals exact ⟨rfl, rfl, trivial⟩
      obtain ⟨opened, nothing, below⟩ := opened
      rw [opened, nothing]
      simp only [depth, opens, hb, if_true]
      exact ⟨by omega, below⟩
  | connective F K =>
    obtain ⟨c, hc, rfl⟩ := Option.map_eq_some_iff.mp h
    exact ⟨rfl, Nat.le_add_left ..⟩
  | closeAngle F c G K =>
    obtain ⟨-, rfl⟩ : t.kind = .closeAngle ∧ K.fill (.compound c F G) = P := by
      simpa [Due.next?] using h
    exact ⟨K.depth_fill_add_closes _, K.hasLevel_fill _⟩
  | boundVariable q K =>
    obtain ⟨-, rfl⟩ : t.kind = .variableName ∧ .due (.colon q ⟨t.text⟩ K) = P := by
      simpa [Due.next?] using h
    exact ⟨rfl, trivial⟩
  | colon q v K =>
    obtain ⟨-, rfl⟩ : t.kind = .colon ∧ .due (.formula (.quantified q v K)) = P := by
      simpa [Due.next?] using h
    exact ⟨rfl, Nat.le_add_left ..⟩
  | equals x K =>
    obtain ⟨-, rfl⟩ : t.kind = .equals ∧ .due (.term (.atomRight x K)) = P := by
      simpa [Due.next?] using h
    exact ⟨rfl, Nat.le_add_left ..⟩
  | term K =>
    simp only [HasLevel] at level
    obtain ⟨balance, below⟩ := TermContext.depth_add_closedBy h
    simp only [closes, depth, opens]
    exact ⟨by omega, below⟩
  | operation x K =>
    obtain ⟨op, ho, rfl⟩ := Option.map_eq_some_iff.mp h
    exact ⟨rfl, Nat.le_add_left ..⟩
  | closeParen x op y K =>
    obtain ⟨-, rfl⟩ : t.kind = .closeParen ∧ K.fill (.compound op x y) = P := by
      simpa [Due.next?] using h
    exact ⟨K.depth_fill_add_closes _, K.hasLevel_fill _⟩

/-- **The levels that a token opens are those it takes the reading to,** counted by the contexts. -/
theorem Due.reach_cases {g : Goal} {c : Due g} (level : c.HasLevel) (k : TokenKind) :
    c.opens k = 0 ∧ c.reach k = 0 ∨ 1 ≤ c.opens k ∧ c.reach k = c.depth + c.opens k := by
  cases c with
  | formula K =>
    simp only [HasLevel] at level
    refine .inr ?_
    simp only [reach, depth, opens]
    split <;> omega
  | term K =>
    simp only [HasLevel] at level
    refine .inr ?_
    simp only [reach, depth, opens]
    omega
  | _ => exact .inl ⟨rfl, rfl⟩

/-- So no other is open behind it. -/
theorem Due.depth_next?_le {g : Goal} {c : Due g} {t : Token} {P : Progress g} (level : c.HasLevel)
    (h : c.next? t = some P) : P.depth ≤ max c.depth (c.reach t.kind) := by
  have balance := (Due.depth_add_closes level h).1
  have reach := Due.reach_cases level t.kind
  omega

/-- **A run opens no level but those it takes the reading to.** -/
theorem Progress.depth_run_le {g : Goal} {P Q : Progress g} {us : List Token} (level : P.HasLevel)
    (h : P.run us = some Q) : Q.depth ≤ max P.depth (P.peak us) := by
  induction us generalizing P with
  | nil =>
    obtain rfl : P = Q := by simpa using h
    exact Nat.le_max_left ..
  | cons t us ih =>
    cases P with
    | done T => cases h
    | due c =>
      obtain ⟨R, taken, rest⟩ := Option.bind_eq_some_iff.mp h
      have first : R.depth ≤ max c.depth (c.reach t.kind) := Due.depth_next?_le level taken
      have behind := ih (Due.depth_add_closes level taken).2 rest
      rw [peak_due_cons, taken, Option.elim_some, depth]
      omega

/-- **A token takes a reading two levels further at most.**  It is two for a term where a formula
is due. -/
theorem Due.reach_le {g : Goal} (c : Due g) (k : TokenKind) : c.reach k ≤ c.depth + 2 := by
  cases c with
  | formula K =>
    simp only [reach, depth]
    split <;> omega
  | term K =>
    simp only [reach, depth]
    omega
  | _ => exact Nat.zero_le _

end Typographical
