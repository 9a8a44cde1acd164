/-
# Formulas

A formula is an equation between terms, the negation of a formula, two formulas
joined by a connective, or a formula quantified over a variable.  This module
holds the type and the questions that are put to a formula: which variables it
has, which of them are free, whether it is open and whether it is well-formed.

The variable a quantifier names is not counted among the formula's variables on
that ground alone.  Openness turns around at a quantifier: below one, a formula
is open when a variable of it is free, and a quantified formula is open when
none is.
-/

import Typographical.Term

namespace Typographical

/-- The connectives that join two formulas. -/
inductive Connective
  | and
  | or
  | implies
deriving DecidableEq, Repr, Inhabited

/-- The word for a connective. -/
def Connective.word : Connective → String
  | .and => "and"
  | .or => "or"
  | .implies => "implies"

/-- The quantifiers. -/
inductive Quantifier
  | forAll
  | thereExists
deriving DecidableEq, Repr, Inhabited

/-- The word for a quantifier. -/
def Quantifier.word : Quantifier → String
  | .forAll => "forall"
  | .thereExists => "exists"

/-- The formulas of number theory. -/
inductive Formula
  | atom (left right : Term)
  | negation (body : Formula)
  | compound (connective : Connective) (left right : Formula)
  | quantification (quantifier : Quantifier) (bound : Variable) (body : Formula)
deriving DecidableEq, Repr, Inhabited

namespace Formula

/-- The variables in the terms of a formula. -/
def vars : Formula → VariableSet
  | atom x y => x.vars.union y.vars
  | negation F => F.vars
  | compound _ F G => F.vars.union G.vars
  | quantification _ _ F => F.vars

/-- The variables of a formula that no quantifier in it binds. -/
def freeVars : Formula → VariableSet
  | atom x y => x.vars.union y.vars
  | negation F => F.freeVars
  | compound _ F G => F.freeVars.union G.freeVars
  | quantification _ v F => F.freeVars.complement (.singleton v)

/-- The variables that are bound in one of two formulas and free in the other. -/
def capturedVars (F G : Formula) : VariableSet :=
  let boundLeft := F.vars.complement F.freeVars
  let boundRight := G.vars.complement G.freeVars
  (boundLeft.intersection G.freeVars).union (boundRight.intersection F.freeVars)

/-- Whether a formula is open: an equation when it has a variable, a compound when one of its
sides is, a quantification when it leaves no variable free. -/
def isOpen : Formula → Bool
  | atom x y => !(x.vars.union y.vars).isEmpty
  | negation F => F.isOpen
  | compound _ F G => F.isOpen || G.isOpen
  | quantification q v F => (quantification q v F).freeVars.isEmpty

/-- Whether no variable is captured between the sides of a compound and every quantified variable
is free in what it is quantified over. -/
def isWellFormed : Formula → Bool
  | atom .. => true
  | negation F => F.isWellFormed
  | compound _ F G => F.isWellFormed && G.isWellFormed && (capturedVars F G).isEmpty
  | quantification _ v F => F.isWellFormed && decide (v ∈ F.freeVars)

/-- The name of the sort of node at the root. -/
def kind : Formula → String
  | atom .. => "Atom"
  | negation _ => "Negation"
  | compound .. => "Compound"
  | quantification .. => "Quantification"

end Formula
end Typographical
