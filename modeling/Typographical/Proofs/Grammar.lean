/-
# The grammar of terms and formulas

`DerivesTerm` and `DerivesFormula` say which token lists derive which trees, one
rule for each way a term or a formula is written:

| tree | tokens |
| --- | --- |
| numeral zero | `0` |
| variable | its name |
| successors of a term | a run of `S`, the term |
| compound term | `(`, term, `+` or `·`, term, `)` |
| equation | term, `=`, term |
| negation | `~`, formula |
| compound | `<`, formula, `∧`, `∨` or `⊃`, formula, `>` |
| quantification | `∀` or `∃`, variable, `:`, formula |

A run of successors over a numeral derives a numeral, over another term a
successor node.  The last argument of a derivation is its level, one more than
the deepest of the derivations directly inside it; so a run of successors is one
level, folded or not, and the terms of an equation lie one level below it.

The spelling of a token counts only where a tree keeps something of it, in names
and in the length of a run.
-/

import Typographical.Parse.Due

namespace Typographical

/-- The kind of token that an operation is written with. -/
def Operation.sign : Operation → TokenKind
  | .sum => .plus
  | .product => .multiply

/-- The kind of token that a connective is written with. -/
def Connective.sign : Connective → TokenKind
  | .and => .and
  | .or => .or
  | .implies => .ifThen

/-- The kind of token that a quantifier is written with. -/
def Quantifier.sign : Quantifier → TokenKind
  | .forAll => .forAll
  | .thereExists => .thereExists

/-- The tokens derive the term, and the derivation has the level. -/
inductive DerivesTerm : List Token → Term → Nat → Prop
  | zero (s : String) : DerivesTerm [⟨.zero, s⟩] (.numeral 0) 1
  | var (name : String) : DerivesTerm [⟨.variableName, name⟩] (.var ⟨name⟩) 1
  | numeral {ts : List Token} {n l : Nat} (run : String) (h : DerivesTerm ts (.numeral n) l) :
      DerivesTerm (⟨.successor, run⟩ :: ts) (.numeral (n + run.length)) (l + 1)
  | successor {ts : List Token} {t : Term} {l : Nat} (run : String) (ht : t.isNumeral = false)
      (h : DerivesTerm ts t l) :
      DerivesTerm (⟨.successor, run⟩ :: ts) (.successor run.length t) (l + 1)
  | compound {xs ys : List Token} {x y : Term} {l m : Nat} (op : Operation) (a s b : String)
      (hx : DerivesTerm xs x l) (hy : DerivesTerm ys y m) :
      DerivesTerm (⟨.openParen, a⟩ :: (xs ++ ⟨op.sign, s⟩ :: (ys ++ [⟨.closeParen, b⟩])))
        (.compound op x y) (max l m + 1)

/-- The tokens derive the formula, and the derivation has the level. -/
inductive DerivesFormula : List Token → Formula → Nat → Prop
  | atom {xs ys : List Token} {x y : Term} {l m : Nat} (s : String)
      (hx : DerivesTerm xs x l) (hy : DerivesTerm ys y m) :
      DerivesFormula (xs ++ ⟨.equals, s⟩ :: ys) (.atom x y) (max l m + 1)
  | negation {fs : List Token} {F : Formula} {l : Nat} (s : String) (hF : DerivesFormula fs F l) :
      DerivesFormula (⟨.negation, s⟩ :: fs) (.negation F) (l + 1)
  | compound {fs gs : List Token} {F G : Formula} {l m : Nat} (c : Connective) (a s b : String)
      (hF : DerivesFormula fs F l) (hG : DerivesFormula gs G m) :
      DerivesFormula (⟨.openAngle, a⟩ :: (fs ++ ⟨c.sign, s⟩ :: (gs ++ [⟨.closeAngle, b⟩])))
        (.compound c F G) (max l m + 1)
  | quantification {fs : List Token} {F : Formula} {l : Nat} (q : Quantifier)
      (a name s : String) (hF : DerivesFormula fs F l) :
      DerivesFormula (⟨q.sign, a⟩ :: ⟨.variableName, name⟩ :: ⟨.colon, s⟩ :: fs)
        (.quantification q ⟨name⟩ F) (l + 1)

/-- The tokens derive some formula. -/
def IsFormula (ts : List Token) : Prop :=
  ∃ F l, DerivesFormula ts F l

/-- The tokens derive a formula once some tokens are put behind them. -/
def Viable (ts : List Token) : Prop :=
  ∃ more, IsFormula (ts ++ more)

/-! ### Signs -/

@[simp] theorem TokenKind.operation?_eq_some {k : TokenKind} {op : Operation} :
    k.operation? = some op ↔ k = op.sign := by
  cases op <;> cases k <;> decide

@[simp] theorem TokenKind.connective?_eq_some {k : TokenKind} {c : Connective} :
    k.connective? = some c ↔ k = c.sign := by
  cases c <;> cases k <;> decide

/-! ### Derivations of terms -/

theorem Term.addSuccessors_of_isNumeral {t : Term} (h : t.isNumeral = false) (q : Nat) :
    t.addSuccessors q = .successor q t := by
  cases t with
  | numeral n => cases h
  | var v => rfl
  | successor p t => rfl
  | compound op x y => rfl

/-- **A run of successors in front of any term.**  The two rules for runs in one. -/
theorem DerivesTerm.addSuccessors {ts : List Token} {t : Term} {l : Nat} (run : String)
    (h : DerivesTerm ts t l) :
    DerivesTerm (⟨.successor, run⟩ :: ts) (t.addSuccessors run.length) (l + 1) := by
  cases ht : t.isNumeral with
  | false =>
    rw [Term.addSuccessors_of_isNumeral ht]
    exact .successor run ht h
  | true =>
    cases t with
    | numeral n => exact .numeral run h
    | var v => cases ht
    | successor q t => cases ht
    | compound op x y => cases ht

theorem DerivesTerm.one_le {ts : List Token} {t : Term} {l : Nat} (h : DerivesTerm ts t l) :
    1 ≤ l := by
  cases h <;> omega

theorem DerivesFormula.one_le {ts : List Token} {F : Formula} {l : Nat}
    (h : DerivesFormula ts F l) : 1 ≤ l := by
  cases h <;> omega

/-- **No sign announces a term.**  So the first token tells an equation from the other formulas. -/
theorem DerivesTerm.exists_cons {ts : List Token} {t : Term} {l : Nat} (h : DerivesTerm ts t l) :
    ∃ first rest, ts = first :: rest ∧ first.kind.beginsConstruct = false := by
  cases h <;> exact ⟨_, _, rfl, rfl⟩

end Typographical
