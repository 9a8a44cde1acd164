/-
# Terms

A term stands for a natural number.  A numeral is kept by its value, however
many successors it was written with; a successor node holds how often the
successor is applied to a term that is no numeral.  `Term.Folded` is that rule,
and `Term.addSuccessors` the way to apply successors that keeps it.
-/

import Typographical.VariableSet

namespace Typographical

/-- The operations that join two terms. -/
inductive Operation
  | sum
  | product
deriving DecidableEq, Repr, Inhabited

/-- The word for an operation. -/
def Operation.word : Operation → String
  | .sum => "sum"
  | .product => "product"

/-- The terms of number theory. -/
inductive Term
  | numeral (value : Nat)
  | var (v : Variable)
  | successor (quantity : Nat) (term : Term)
  | compound (op : Operation) (left right : Term)
deriving DecidableEq, Repr, Inhabited

namespace Term

/-- Whether a term is a numeral. -/
def isNumeral : Term → Bool
  | numeral _ => true
  | _ => false

/-- No successor node applies the successor to a numeral, or fewer times than once. -/
def Folded : Term → Prop
  | numeral _ => True
  | var _ => True
  | successor q t => 1 ≤ q ∧ t.isNumeral = false ∧ t.Folded
  | compound _ x y => x.Folded ∧ y.Folded

/-- Applies the successor to a term a number of times; on a numeral that is an addition. -/
def addSuccessors (q : Nat) : Term → Term
  | numeral n => numeral (n + q)
  | t => successor q t

/-- The variables of a term. -/
def vars : Term → VariableSet
  | numeral _ => ∅
  | var v => .singleton v
  | successor _ t => t.vars
  | compound _ x y => x.vars.union y.vars

/-- The name of the sort of node at the root. -/
def kind : Term → String
  | numeral _ => "Numeral"
  | var _ => "Variable"
  | successor .. => "Successor"
  | compound .. => "CompoundTerm"

/-- **Successors are applied without unfolding anything.** -/
theorem folded_addSuccessors {q : Nat} {t : Term} (hq : 1 ≤ q) (ht : t.Folded) :
    (t.addSuccessors q).Folded := by
  cases t with
  | numeral n => trivial
  | var v => exact ⟨hq, rfl, trivial⟩
  | successor p t => exact ⟨hq, rfl, ht⟩
  | compound op x y => exact ⟨hq, rfl, ht⟩

example : (numeral 2).addSuccessors 3 = numeral 5 := rfl

end Term
end Typographical
