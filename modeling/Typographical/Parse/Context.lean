/-
# What waits for a part

While a part of a formula is being read, the constructs around it wait for it.
A context is such a stack of constructs with a hole in the innermost one: a
`FormulaContext` has a hole for a formula, a `TermContext` one for a term.

A construct in a hole lies one level deeper than the construct whose hole it is.
The level of a context is the level of what goes into its hole, counted from where
the reading began.  Outermost, it is the level that the goal itself opens: one, or
zero where the reading begins inside the goal and its level is not its own.

A reading is after a formula or after a term, its goal.  Formulas are never part
of terms, so only a `TermContext` may end in either goal.
-/

import Typographical.Formula

namespace Typographical

/-- What a reading is after. -/
inductive Goal
  | formula
  | term
deriving DecidableEq, Repr

/-- The trees that meet a goal. -/
abbrev Goal.Tree : Goal → Type
  | .formula => Formula
  | .term => Term

/-- Constructs around a formula that is yet to be read, the innermost first. -/
inductive FormulaContext
  | outermost (level : Nat)
  | negation (around : FormulaContext)
  | compoundLeft (around : FormulaContext)
  | compoundRight (left : Formula) (connective : Connective) (around : FormulaContext)
  | quantified (quantifier : Quantifier) (bound : Variable) (around : FormulaContext)
deriving Repr

/-- The level of a formula in the hole. -/
def FormulaContext.level : FormulaContext → Nat
  | outermost level => level
  | negation K => K.level + 1
  | compoundLeft K => K.level + 1
  | compoundRight _ _ K => K.level + 1
  | quantified _ _ K => K.level + 1

/-- Constructs around a term that is yet to be read, the innermost first. -/
inductive TermContext : Goal → Type
  | outermost (level : Nat) : TermContext .term
  | atomLeft (around : FormulaContext) : TermContext .formula
  | atomRight (left : Term) (around : FormulaContext) : TermContext .formula
  | successor {g : Goal} (quantity : Nat) (around : TermContext g) : TermContext g
  | operandLeft {g : Goal} (around : TermContext g) : TermContext g
  | operandRight {g : Goal} (left : Term) (op : Operation) (around : TermContext g) : TermContext g

/-- The level of a term in the hole. -/
def TermContext.level {g : Goal} : TermContext g → Nat
  | outermost level => level
  | atomLeft K => K.level + 1
  | atomRight _ K => K.level + 1
  | successor _ K => K.level + 1
  | operandLeft K => K.level + 1
  | operandRight _ _ K => K.level + 1

end Typographical
