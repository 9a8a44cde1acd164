/-
# Runs over token lists

`Due.next?` says what one token makes of a reading; `Progress.run` is what a
list of tokens makes of it, bound or no bound.  `Due.reach` is the level that a
token takes a reading to, and `Progress.peak` the deepest one on the way.  A
reading whose goal is met takes no further token, and a reading that a token is
refused to goes nowhere.

`DerivesTerm.leads` and `DerivesFormula.leads` run a derivation: wherever a term
or a formula is due, its tokens lead to the hole being filled with it, and the
deepest level on the way is the level of the hole plus that of the derivation,
less the one they share.
-/

import Typographical.Proofs.Grammar

namespace Typographical

/-- The deepest level that a token takes a reading to, or zero if it begins no construct. -/
def Due.reach {g : Goal} : Due g → TokenKind → Nat
  | formula K, k => if k.beginsConstruct then K.level else K.level + 1
  | term K, _ => K.level
  | _, _ => 0

namespace Progress

variable {g : Goal}

/-- Where a list of tokens takes a reading, if none of them is refused. -/
def run : Progress g → List Token → Option (Progress g)
  | P, [] => some P
  | .done _, _ :: _ => none
  | .due c, t :: ts => (c.next? t).bind fun P => P.run ts

/-- The deepest level that a list of tokens takes a reading to, up to and including the first
token that is refused. -/
def peak : Progress g → List Token → Nat
  | _, [] => 0
  | .done _, _ :: _ => 0
  | .due c, t :: ts => max (c.reach t.kind) ((c.next? t).elim 0 fun P => P.peak ts)

@[simp] theorem run_nil (P : Progress g) : P.run [] = some P := by
  cases P <;> rfl

@[simp] theorem run_done_cons (T : g.Tree) (t : Token) (ts : List Token) :
    (done T : Progress g).run (t :: ts) = none := rfl

@[simp] theorem run_due_cons (c : Due g) (t : Token) (ts : List Token) :
    (due c).run (t :: ts) = (c.next? t).bind fun P => P.run ts := rfl

@[simp] theorem peak_nil (P : Progress g) : P.peak [] = 0 := by
  cases P <;> rfl

@[simp] theorem peak_due_cons (c : Due g) (t : Token) (ts : List Token) :
    (due c).peak (t :: ts) = max (c.reach t.kind) ((c.next? t).elim 0 fun P => P.peak ts) := rfl

/-- **A run over two lists is a run over the one and then the other.** -/
theorem run_append (P : Progress g) (xs ys : List Token) :
    P.run (xs ++ ys) = (P.run xs).bind fun Q => Q.run ys := by
  induction xs generalizing P with
  | nil => simp
  | cons t xs ih =>
    cases P with
    | done T => rfl
    | due c =>
      rw [List.cons_append, run_due_cons, run_due_cons, Option.bind_assoc]
      exact Option.bind_congr fun Q _ => ih Q

/-- A list that is taken takes each of its beginnings with it. -/
theorem exists_run_of_append {P R : Progress g} {xs ys : List Token}
    (h : P.run (xs ++ ys) = some R) : ∃ Q, P.run xs = some Q ∧ Q.run ys = some R := by
  rw [run_append] at h
  exact Option.bind_eq_some_iff.mp h

/-- **Behind a tree that meets the goal nothing is taken.** -/
theorem eq_nil_of_run_append {P R : Progress g} {T : g.Tree} {xs ys : List Token}
    (hx : P.run xs = some (.done T)) (h : P.run (xs ++ ys) = some R) : ys = [] ∧ R = .done T := by
  obtain ⟨Q, hQ, hR⟩ := exists_run_of_append h
  obtain rfl : .done T = Q := Option.some.inj (hx.symm.trans hQ)
  cases ys with
  | nil => exact ⟨rfl, (Option.some.inj hR).symm⟩
  | cons t ys => cases hR

/-- **The deepest level of two lists is the deeper of theirs.** -/
theorem peak_append {P Q : Progress g} {xs : List Token} (h : P.run xs = some Q)
    (ys : List Token) : P.peak (xs ++ ys) = max (P.peak xs) (Q.peak ys) := by
  induction xs generalizing P with
  | nil =>
    obtain rfl : P = Q := by simpa using h
    simp
  | cons t xs ih =>
    cases P with
    | done T => cases h
    | due c =>
      obtain ⟨R, hR, hQ⟩ := Option.bind_eq_some_iff.mp h
      rw [List.cons_append, peak_due_cons, peak_due_cons, hR, Option.elim_some, Option.elim_some,
        ih hQ, Nat.max_assoc]

/-- A list of tokens is taken, with the given end and the given deepest level. -/
def Leads (P : Progress g) (ts : List Token) (Q : Progress g) (level : Nat) : Prop :=
  P.run ts = some Q ∧ P.peak ts = level

theorem Leads.append {P Q R : Progress g} {xs ys : List Token} {l m : Nat}
    (h : P.Leads xs Q l) (k : Q.Leads ys R m) : P.Leads (xs ++ ys) R (max l m) := by
  refine ⟨?_, ?_⟩
  · rw [run_append, h.1, Option.bind_some, k.1]
  · rw [peak_append h.1, h.2, k.2]

theorem Leads.cons {c : Due g} {t : Token} {Q R : Progress g} {ts : List Token} {l : Nat}
    (h : c.next? t = some Q) (k : Q.Leads ts R l) :
    (due c).Leads (t :: ts) R (max (c.reach t.kind) l) := by
  refine ⟨?_, ?_⟩
  · rw [run_due_cons, h, Option.bind_some, k.1]
  · rw [peak_due_cons, h, Option.elim_some, k.2]

theorem Leads.single {c : Due g} {t : Token} {Q : Progress g} (h : c.next? t = some Q) :
    (due c).Leads [t] Q (c.reach t.kind) := by
  have stay : Q.Leads [] Q 0 := ⟨run_nil Q, peak_nil Q⟩
  have k := Leads.cons h stay
  rwa [Nat.max_zero] at k

theorem Leads.of_level_eq {P Q : Progress g} {ts : List Token} {l m : Nat} (h : P.Leads ts Q l)
    (e : l = m) : P.Leads ts Q m :=
  e ▸ h

end Progress

open Progress

/-! ### Running a derivation -/

/-- **A derivation of a term fills the hole it is read in.** -/
theorem DerivesTerm.leads {g : Goal} {ts : List Token} {t : Term} {l : Nat}
    (h : DerivesTerm ts t l) (K : TermContext g) :
    (due (.term K)).Leads ts (K.fill t) (K.level + l - 1) := by
  induction h generalizing K with
  | zero s => exact Leads.single rfl
  | var name => exact Leads.single rfl
  | @numeral ts n l run h ih =>
    have one := h.one_le
    have inner := ih (.successor run.length K)
    refine (Leads.cons rfl inner).of_level_eq ?_
    simp only [Due.reach, TermContext.level]
    omega
  | @successor ts t l run ht h ih =>
    have one := h.one_le
    have inner := ih (.successor run.length K)
    rw [TermContext.fill, Term.addSuccessors_of_isNumeral ht] at inner
    refine (Leads.cons rfl inner).of_level_eq ?_
    simp only [Due.reach, TermContext.level]
    omega
  | @compound xs ys x y l m op a s b hx hy ihx ihy =>
    have one := hx.one_le
    have one' := hy.one_le
    have left := ihx (.operandLeft K)
    have right := ihy (.operandRight x op K)
    have sign : (Due.operation x K).next? ⟨op.sign, s⟩ =
        some (.due (.term (.operandRight x op K))) := by cases op <;> rfl
    have close : (due (.closeParen x op y K)).Leads [⟨.closeParen, b⟩]
        (K.fill (.compound op x y)) 0 := Leads.single rfl
    have behind := Leads.cons sign (right.append close)
    refine (Leads.cons rfl (left.append behind)).of_level_eq ?_
    simp only [Due.reach, TermContext.level]
    omega

/-- Where a formula is due, a token that announces none is read as the left side of an equation. -/
theorem Due.next?_formula_of_beginsConstruct {K : FormulaContext} {t : Token}
    (h : t.kind.beginsConstruct = false) :
    (Due.formula K).next? t = (Due.term (.atomLeft K)).next? t := by
  cases t with
  | mk k s => cases k <;> first | rfl | cases h

/-- It takes the reading to the same level. -/
theorem Due.reach_formula_of_beginsConstruct {K : FormulaContext} {k : TokenKind}
    (h : k.beginsConstruct = false) :
    (Due.formula K).reach k = (Due.term (.atomLeft K)).reach k := by
  simp [Due.reach, h, TermContext.level]

/-- So the tokens of a term lead from a due formula to where they lead from a due left side. -/
theorem Progress.Leads.formula_of_term {K : FormulaContext} {ts : List Token} {t : Term}
    {l m : Nat} {Q : Progress .formula} (h : DerivesTerm ts t l)
    (k : (due (.term (.atomLeft K))).Leads ts Q m) : (due (.formula K)).Leads ts Q m := by
  obtain ⟨first, rest, rfl, hb⟩ := h.exists_cons
  refine ⟨?_, ?_⟩
  · rw [run_due_cons, Due.next?_formula_of_beginsConstruct hb]
    exact k.1
  · rw [peak_due_cons, Due.next?_formula_of_beginsConstruct hb,
      Due.reach_formula_of_beginsConstruct hb]
    exact k.2

/-- **A derivation of a formula fills the hole it is read in.** -/
theorem DerivesFormula.leads {ts : List Token} {F : Formula} {l : Nat}
    (h : DerivesFormula ts F l) (K : FormulaContext) :
    (due (.formula K)).Leads ts (K.fill F) (K.level + l - 1) := by
  induction h generalizing K with
  | @atom xs ys x y l m s hx hy =>
    have one := hx.one_le
    have one' := hy.one_le
    -- no sign announces an equation: its left side is read where the formula is due
    have left := Leads.formula_of_term hx (hx.leads (.atomLeft K))
    have right : (due (.equals x K)).Leads (⟨.equals, s⟩ :: ys) _ _ :=
      Leads.cons rfl (hy.leads (.atomRight x K))
    refine (left.append right).of_level_eq ?_
    simp only [Due.reach, TermContext.level]
    omega
  | @negation fs F l s hF ih =>
    have one := hF.one_le
    have inner := ih (.negation K)
    refine (Leads.cons rfl inner).of_level_eq ?_
    simp only [Due.reach, TokenKind.beginsConstruct, if_true, FormulaContext.level]
    omega
  | @compound fs gs F G l m c a s b hF hG ihF ihG =>
    have one := hF.one_le
    have one' := hG.one_le
    have left := ihF (.compoundLeft K)
    have right := ihG (.compoundRight F c K)
    have sign : (Due.connective F K).next? ⟨c.sign, s⟩ =
        some (.due (.formula (.compoundRight F c K))) := by cases c <;> rfl
    have close : (due (.closeAngle F c G K)).Leads [⟨.closeAngle, b⟩]
        (K.fill (.compound c F G)) 0 := Leads.single rfl
    have behind := Leads.cons sign (right.append close)
    refine (Leads.cons rfl (left.append behind)).of_level_eq ?_
    simp only [Due.reach, TokenKind.beginsConstruct, if_true, FormulaContext.level]
    omega
  | @quantification fs F l q a name s hF ih =>
    have one := hF.one_le
    have level : (Due.formula K).reach q.sign = K.level := by cases q <;> rfl
    have sign : (Due.formula K).next? ⟨q.sign, a⟩ = some (.due (.boundVariable q K)) := by
      cases q <;> rfl
    have body : (due (.colon q ⟨name⟩ K)).Leads (⟨.colon, s⟩ :: fs) _ _ :=
      Leads.cons rfl (ih (.quantified q ⟨name⟩ K))
    have named : (due (.boundVariable q K)).Leads
        (⟨.variableName, name⟩ :: ⟨.colon, s⟩ :: fs) _ _ := Leads.cons rfl body
    refine (Leads.cons sign named).of_level_eq ?_
    rw [level]
    simp only [Due.reach, FormulaContext.level]
    omega

end Typographical
