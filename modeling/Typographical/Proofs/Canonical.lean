/-
# Canonical trees

A tree is canonical when its successors are folded and every name in it, those
of quantifiers included, can be written.  `Formula.height` is how deep a tree
nests, which for a numeral does not depend on the value: however long the run,
it is one level over the zero.

What the tokens of a text derive is canonical (`DerivesFormula.canonical`), and
it is no higher than the level of the derivation (`DerivesFormula.height_le`).
It may be lower, where the text has several runs for one numeral.
-/

import Typographical.Proofs.Grammar
import Typographical.Proofs.Lexeme

namespace Typographical
namespace Term

/-- Successors are folded, and the names are ones that can be written. -/
def Canonical (t : Term) : Prop :=
  t.Folded ∧ ∀ v ∈ t.vars, v.Writable

theorem canonical_numeral (n : Nat) : (numeral n).Canonical :=
  ⟨trivial, fun v h => absurd h (VariableSet.not_mem_empty v)⟩

theorem canonical_var {v : Variable} : (var v).Canonical ↔ v.Writable := by
  simp [Canonical, Folded, vars, VariableSet.mem_singleton]

theorem canonical_successor {q : Nat} {t : Term} :
    (successor q t).Canonical ↔ 1 ≤ q ∧ t.isNumeral = false ∧ t.Canonical := by
  simp only [Canonical, Folded, vars, and_assoc]

theorem canonical_compound {op : Operation} {x y : Term} :
    (compound op x y).Canonical ↔ x.Canonical ∧ y.Canonical := by
  simp only [Canonical, Folded, vars, VariableSet.mem_union, or_imp, forall_and]
  exact and_and_and_comm

/-- How deep a term nests. -/
def height : Term → Nat
  | numeral n => if n = 0 then 1 else 2
  | var _ => 1
  | successor _ t => t.height + 1
  | compound _ x y => max x.height y.height + 1

theorem height_numeral_le (n : Nat) : (numeral n).height ≤ 2 := by
  unfold height
  split <;> omega

end Term

namespace Formula

/-- The terms are canonical, and the quantified names are ones that can be written. -/
def Canonical : Formula → Prop
  | atom x y => x.Canonical ∧ y.Canonical
  | negation F => F.Canonical
  | compound _ F G => F.Canonical ∧ G.Canonical
  | quantification _ v F => v.Writable ∧ F.Canonical

/-- How deep a formula nests.  The variable of a quantifier does not count. -/
def height : Formula → Nat
  | atom x y => max x.height y.height + 1
  | negation F => F.height + 1
  | compound _ F G => max F.height G.height + 1
  | quantification _ _ F => F.height + 1

end Formula

/-! ### What is derived from the tokens of a text -/

/-- **A term that spelled tokens derive is canonical.** -/
theorem DerivesTerm.canonical {ts : List Token} {t : Term} {l : Nat} (h : DerivesTerm ts t l)
    (spelled : ∀ u ∈ ts, u.Spelled) : t.Canonical := by
  induction h with
  | zero s => exact Term.canonical_numeral 0
  | var name =>
    have writable := (spelled _ List.mem_cons_self).writable
    exact Term.canonical_var.mpr writable
  | @numeral ts n l run h ih => exact Term.canonical_numeral _
  | @successor ts t l run ht h ih =>
    have below := ih fun u hu => spelled u (List.mem_cons_of_mem _ hu)
    have length := (spelled _ List.mem_cons_self).one_le_length
    exact Term.canonical_successor.mpr ⟨length, ht, below⟩
  | @compound xs ys x y l m op a s b hx hy ihx ihy =>
    have left := ihx fun u hu => spelled u (by simp [hu])
    have right := ihy fun u hu => spelled u (by simp [hu])
    exact Term.canonical_compound.mpr ⟨left, right⟩

/-- **A formula that spelled tokens derive is canonical.** -/
theorem DerivesFormula.canonical {ts : List Token} {F : Formula} {l : Nat}
    (h : DerivesFormula ts F l) (spelled : ∀ u ∈ ts, u.Spelled) : F.Canonical := by
  induction h with
  | @atom xs ys x y l m s hx hy =>
    have left := hx.canonical fun u hu => spelled u (by simp [hu])
    have right := hy.canonical fun u hu => spelled u (by simp [hu])
    exact ⟨left, right⟩
  | @negation fs F l s hF ih => exact ih fun u hu => spelled u (List.mem_cons_of_mem _ hu)
  | @compound fs gs F G l m c a s b hF hG ihF ihG =>
    have left := ihF fun u hu => spelled u (by simp [hu])
    have right := ihG fun u hu => spelled u (by simp [hu])
    exact ⟨left, right⟩
  | @quantification fs F l q a name s hF ih =>
    have named : Token.Spelled ⟨.variableName, name⟩ := spelled _ (by simp)
    have body := ih fun u hu => spelled u (by simp [hu])
    exact ⟨named.writable, body⟩

/-- **A term is no higher than the level of its derivation.** -/
theorem DerivesTerm.height_le {ts : List Token} {t : Term} {l : Nat} (h : DerivesTerm ts t l) :
    t.height ≤ l := by
  induction h with
  | zero s => exact Nat.le_refl 1
  | var name => exact Nat.le_refl 1
  | @numeral ts n l run h ih =>
    -- all runs over a numeral are folded to one level, and there may be many
    have one := h.one_le
    have folded := Term.height_numeral_le (n + run.length)
    omega
  | successor run ht h ih => exact Nat.add_le_add_right ih 1
  | compound op a s b hx hy ihx ihy =>
    simp only [Term.height]
    omega

/-- **A formula is no higher than the level of its derivation.** -/
theorem DerivesFormula.height_le {ts : List Token} {F : Formula} {l : Nat}
    (h : DerivesFormula ts F l) : F.height ≤ l := by
  induction h with
  | atom s hx hy =>
    have left := hx.height_le
    have right := hy.height_le
    simp only [Formula.height]
    omega
  | negation s hF ih => exact Nat.add_le_add_right ih 1
  | compound c a s b hF hG ihF ihG =>
    simp only [Formula.height]
    omega
  | quantification q a name s hF ih => exact Nat.add_le_add_right ih 1

end Typographical
