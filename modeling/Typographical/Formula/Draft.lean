/-
# Drafts

A draft is a tree as somebody writes it down, with any integers in it.  Building
it checks each node once its parts are built, the left before the right, and the
first node that breaks a rule is the error.

`Term.folded_of_build` says that what a draft of a term builds is folded.
-/

import Typographical.Formula

namespace Typographical

/-- Why a node cannot be built. -/
inductive BuildError
  | negativeNumeral (value : Int)
  | quantityBelowOne (quantity : Int)
  | unfoldedNumeral
deriving DecidableEq, Repr

/-- What a message says about it. -/
def BuildError.message : BuildError → String
  | .negativeNumeral value => s!"numeral must be non-negative, got {value}"
  | .quantityBelowOne quantity => s!"successor quantity must be positive, got {quantity}"
  | .unfoldedNumeral => "successor of a numeral must be folded into a Numeral"

namespace Term

/-- The numeral of a value. -/
def ofValue (value : Int) : Except BuildError Term :=
  if value < 0 then .error (.negativeNumeral value) else .ok (numeral value.toNat)

/-- The successor node over a term, which must be no numeral. -/
def ofSuccessor (quantity : Int) (t : Term) : Except BuildError Term :=
  if quantity < 1 then .error (.quantityBelowOne quantity)
  else if t.isNumeral then .error .unfoldedNumeral
  else .ok (successor quantity.toNat t)

/-- A number of successors over a term; a numeral takes any number that leaves a value. -/
def ofFoldedSuccessor (quantity : Int) : Term → Except BuildError Term
  | numeral n => ofValue (n + quantity)
  | t => ofSuccessor quantity t

/-- A term to be built. -/
inductive Draft
  | numeral (value : Int)
  | var (v : Variable)
  | successor (quantity : Int) (term : Draft)
  | foldedSuccessor (quantity : Int) (term : Draft)
  | compound (op : Operation) (left right : Draft)
deriving Repr, Inhabited

/-- The term that a draft describes. -/
def Draft.build : Draft → Except BuildError Term
  | .numeral value => ofValue value
  | .var v => .ok (Term.var v)
  | .successor q d => do ofSuccessor q (← d.build)
  | .foldedSuccessor q d => do ofFoldedSuccessor q (← d.build)
  | .compound op d e => do
    let x ← d.build
    let y ← e.build
    .ok (Term.compound op x y)

theorem folded_of_ofValue {value : Int} {t : Term} (h : ofValue value = .ok t) : t.Folded := by
  unfold ofValue at h
  split at h
  · cases h
  · cases h
    trivial

theorem folded_of_ofSuccessor {q : Int} {s t : Term} (hs : s.Folded)
    (h : ofSuccessor q s = .ok t) : t.Folded := by
  unfold ofSuccessor at h
  split at h
  · cases h
  · split at h
    · cases h
    · next hq hn =>
      cases h
      exact ⟨by omega, by simpa using hn, hs⟩

theorem folded_of_ofFoldedSuccessor {q : Int} {s t : Term} (hs : s.Folded)
    (h : ofFoldedSuccessor q s = .ok t) : t.Folded := by
  cases s with
  | numeral n => exact folded_of_ofValue h
  | var v => exact folded_of_ofSuccessor hs h
  | successor p s => exact folded_of_ofSuccessor hs h
  | compound op x y => exact folded_of_ofSuccessor hs h

theorem ofSuccessor_of_one_le {q : Int} (h : 1 ≤ q) {t : Term} (notNumeral : t.isNumeral = false) :
    ofSuccessor q t = .ok (successor q.toNat t) := by
  rw [ofSuccessor, if_neg (by omega), notNumeral]
  rfl

/-- **From one on, a number of successors can be applied to any term,** and reading applies them in
the same way. -/
theorem ofFoldedSuccessor_of_one_le {q : Int} (h : 1 ≤ q) (t : Term) :
    ofFoldedSuccessor q t = .ok (t.addSuccessors q.toNat) := by
  cases t with
  | numeral n =>
    have value : ((n : Int) + q).toNat = n + q.toNat := by omega
    rw [ofFoldedSuccessor, ofValue, if_neg (by omega), value]
    rfl
  | var v => exact ofSuccessor_of_one_le h rfl
  | successor p t => exact ofSuccessor_of_one_le h rfl
  | compound op x y => exact ofSuccessor_of_one_le h rfl

/-- A build in two stages succeeds when both stages do. -/
theorem exists_ok_of_bind {α β : Type} {first : Except BuildError α}
    {second : α → Except BuildError β} {b : β} (h : first >>= second = .ok b) :
    ∃ a, first = .ok a ∧ second a = .ok b := by
  cases first with
  | error e => cases h
  | ok a => exact ⟨a, rfl, h⟩

/-- **What is built is folded.** -/
theorem folded_of_build {d : Draft} {t : Term} (h : d.build = .ok t) : t.Folded := by
  induction d generalizing t with
  | numeral value => exact folded_of_ofValue h
  | var v =>
    cases h
    trivial
  | successor q d ih =>
    obtain ⟨s, hd, hs⟩ := exists_ok_of_bind h
    exact folded_of_ofSuccessor (ih hd) hs
  | foldedSuccessor q d ih =>
    obtain ⟨s, hd, hs⟩ := exists_ok_of_bind h
    exact folded_of_ofFoldedSuccessor (ih hd) hs
  | compound op d e ihd ihe =>
    obtain ⟨x, hd, hx⟩ := exists_ok_of_bind h
    obtain ⟨y, he, hy⟩ := exists_ok_of_bind hx
    cases hy
    exact ⟨ihd hd, ihe he⟩

end Term

namespace Formula

/-- A formula to be built. -/
inductive Draft
  | atom (left right : Term.Draft)
  | negation (body : Draft)
  | compound (connective : Connective) (left right : Draft)
  | quantification (quantifier : Quantifier) (bound : Variable) (body : Draft)
deriving Repr, Inhabited

/-- The formula that a draft describes. -/
def Draft.build : Draft → Except BuildError Formula
  | .atom d e => do
    let x ← d.build
    let y ← e.build
    .ok (Formula.atom x y)
  | .negation d => do
    let F ← d.build
    .ok (Formula.negation F)
  | .compound c d e => do
    let F ← d.build
    let G ← e.build
    .ok (Formula.compound c F G)
  | .quantification q v d => do
    let F ← d.build
    .ok (Formula.quantification q v F)

end Formula
end Typographical
