/-
# Runs that are divided

A run of successors may be written as several, one behind the other, with as many letters
in all (`Divides`).  What the tokens derive then has the same value.  Where nothing but
runs stands between the division and a zero (`FrontsZero`), all of them are folded into
one numeral and the term is the same; anywhere else the division makes one more node
(`Term.SplitInto`, `DerivesTerm.of_divides`).
-/

import Typographical.Proofs.Folding

namespace Typographical

variable {ts us xs zs : List Token} {s : Token} {k : Nat}

/-! ### Runs in front of a zero -/

/-- Nothing but runs of successors stands in front of a zero. -/
def FrontsZero : List Token → Prop
  | [] => False
  | t :: ts => t.kind = .zero ∨ t.kind = .successor ∧ FrontsZero ts

instance FrontsZero.decidable : (ts : List Token) → Decidable (FrontsZero ts)
  | [] => inferInstanceAs (Decidable False)
  | t :: ts =>
    have := FrontsZero.decidable ts
    inferInstanceAs (Decidable (t.kind = .zero ∨ t.kind = .successor ∧ FrontsZero ts))

theorem frontsZero_run (run : String) : FrontsZero (⟨.successor, run⟩ :: ts) ↔ FrontsZero ts :=
  ⟨fun h => (h.resolve_left nofun).2, fun h => .inr ⟨rfl, h⟩⟩

/-- What stands behind a token that is neither counts for nothing. -/
theorem frontsZero_append_cons (noRun : s.kind ≠ .successor) (noZero : s.kind ≠ .zero) :
    FrontsZero (xs ++ s :: zs) ↔ FrontsZero xs := by
  induction xs with
  | nil => exact iff_of_false (fun h => h.elim noZero fun run => noRun run.1) id
  | cons x xs ih => exact or_congr_right (and_congr_right' ih)

theorem DerivesTerm.frontsZero_iff {t : Term} {l : Nat} (h : DerivesTerm ts t l) :
    FrontsZero ts ↔ t.isNumeral = true := by
  induction h with
  | zero s => exact iff_of_true (.inl rfl) rfl
  | var name => exact iff_of_false (fun h => h.elim nofun fun run => nomatch run.1) nofun
  | numeral run h ih => exact (frontsZero_run run).trans (ih.trans (iff_of_true rfl rfl))
  | successor run ht h ih =>
    rw [frontsZero_run, ih, ht]
    exact iff_of_false nofun nofun
  | compound op a s b hx hy =>
    exact iff_of_false (fun h => h.elim nofun fun run => nomatch run.1) nofun

/-! ### Lists of tokens with runs divided -/

/-- Some runs of a list of tokens are divided in another, and so many of the divisions are not in
front of a zero. -/
inductive Divides : List Token → List Token → Nat → Prop
  | nil : Divides [] [] 0
  | keep {ts us : List Token} {k : Nat} (t : Token) (h : Divides ts us k) :
      Divides (t :: ts) (t :: us) k
  | cut {ts us : List Token} {k : Nat} {run first rest : String}
      (length : run.length = first.length + rest.length)
      (h : Divides (⟨.successor, rest⟩ :: ts) us k) :
      Divides (⟨.successor, run⟩ :: ts) (⟨.successor, first⟩ :: us)
        (k + if FrontsZero ts then 0 else 1)

/-- A list is divided on either side of a token that is no run; in front of another zero than one
that stands before it, there is none. -/
theorem Divides.of_append_cons (noRun : s.kind ≠ .successor) (noZero : s.kind ≠ .zero)
    (h : Divides (xs ++ s :: zs) us k) :
    ∃ xs' zs' m n, us = xs' ++ s :: zs' ∧ Divides xs xs' m ∧ Divides zs zs' n ∧ k = m + n := by
  generalize whole : xs ++ s :: zs = ts at h
  induction h generalizing xs with
  | nil => cases xs <;> cases whole
  | @keep ts us k t h ih =>
    cases xs with
    | nil =>
      obtain ⟨rfl, rfl⟩ := List.cons.inj whole
      exact ⟨[], us, 0, k, rfl, .nil, h, (Nat.zero_add k).symm⟩
    | cons x xs =>
      obtain ⟨rfl, behind⟩ := List.cons.inj whole
      obtain ⟨xs', zs', m, n, rfl, left, right, sum⟩ := ih behind
      exact ⟨x :: xs', zs', m, n, rfl, .keep x left, right, sum⟩
  | @cut ts us k run first rest length h ih =>
    cases xs with
    | nil =>
      obtain ⟨rfl, -⟩ := List.cons.inj whole
      exact absurd rfl noRun
    | cons x xs =>
      rw [List.cons_append] at whole
      obtain ⟨rfl, rfl⟩ := List.cons.inj whole
      obtain ⟨xs', zs', m, n, rfl, left, right, sum⟩ := @ih (⟨.successor, rest⟩ :: xs) rfl
      refine ⟨_, zs', _, n, rfl, .cut length left, right, ?_⟩
      simp only [frontsZero_append_cons noRun noZero]
      omega

/-- A run with one more letter in front is divided as it was, the first part being longer. -/
theorem Divides.longer {run first : String}
    (h : Divides (⟨.successor, run⟩ :: ts) (⟨.successor, first⟩ :: us) k) :
    Divides (⟨.successor, String.ofList ('S' :: run.toList)⟩ :: ts)
      (⟨.successor, String.ofList ('S' :: first.toList)⟩ :: us) k := by
  have longer (text : String) : (String.ofList ('S' :: text.toList)).length = text.length + 1 := by
    rw [String.length_ofList, List.length_cons, String.length_toList]
  cases h with
  | keep t h => exact .keep _ h
  | cut length h =>
    refine .cut ?_ h
    rw [longer, longer, length]
    omega

/-! ### What becomes of a term -/

namespace Term

/-- How many successor nodes a term has. -/
def successorNodes : Term → Nat
  | numeral _ => 0
  | var _ => 0
  | successor _ t => t.successorNodes + 1
  | compound _ x y => x.successorNodes + y.successorNodes

theorem isNumeral_addSuccessors (q : Nat) (t : Term) :
    (t.addSuccessors q).isNumeral = t.isNumeral := by
  cases t <;> rfl

/-- Successors make a node over any term but a numeral. -/
theorem successorNodes_addSuccessors (q : Nat) (t : Term) :
    (t.addSuccessors q).successorNodes =
      t.successorNodes + if t.isNumeral = true then 0 else 1 := by
  cases t <;> rfl

/-- A term becomes another one of the same value, with so many successor nodes more, and the same
if there are none more. -/
structure SplitInto (t u : Term) (k : Nat) : Prop where
  value : ∀ σ, u.value σ = t.value σ
  nodes : u.successorNodes = t.successorNodes + k
  isNumeral : u.isNumeral = t.isNumeral
  same : k = 0 → u = t

namespace SplitInto

variable {t u x y x' y' : Term} {m n : Nat}

theorem refl (t : Term) : t.SplitInto t 0 :=
  ⟨fun _ => rfl, rfl, rfl, fun _ => rfl⟩

/-- **The term is another one exactly where there are nodes more.** -/
theorem eq_iff (h : t.SplitInto u k) : u = t ↔ k = 0 := by
  refine ⟨fun same => ?_, h.same⟩
  have nodes := h.nodes
  rw [same] at nodes
  omega

theorem addSuccessors (h : t.SplitInto u k) (q : Nat) :
    (t.addSuccessors q).SplitInto (u.addSuccessors q) k where
  value σ := by rw [value_addSuccessors, value_addSuccessors, h.value]
  nodes := by
    rw [successorNodes_addSuccessors, successorNodes_addSuccessors, h.isNumeral, h.nodes]
    omega
  isNumeral := by rw [isNumeral_addSuccessors, isNumeral_addSuccessors, h.isNumeral]
  same none := by rw [h.same none]

/-- **A run that is divided makes a node more over any term but a numeral.** -/
theorem cut {p q : Nat} (h : (t.addSuccessors q).SplitInto u k) :
    (t.addSuccessors (p + q)).SplitInto (u.addSuccessors p)
      (k + if t.isNumeral = true then 0 else 1) where
  value σ := by
    rw [value_addSuccessors, h.value, value_addSuccessors, value_addSuccessors]
    omega
  nodes := by
    rw [successorNodes_addSuccessors, h.isNumeral, h.nodes, successorNodes_addSuccessors,
      successorNodes_addSuccessors, isNumeral_addSuccessors]
    omega
  isNumeral := by
    rw [isNumeral_addSuccessors, h.isNumeral, isNumeral_addSuccessors, isNumeral_addSuccessors]
  same none := by
    obtain ⟨noMore, folded⟩ := Nat.add_eq_zero_iff.mp none
    cases t with
    | numeral n =>
      rw [h.same noMore]
      show numeral (n + q + p) = numeral (n + (p + q))
      rw [Nat.add_assoc, Nat.add_comm q]
    | var v => cases folded
    | successor p t => cases folded
    | compound op x y => cases folded

theorem compound (op : Operation) (hx : x.SplitInto x' m) (hy : y.SplitInto y' n) :
    (Term.compound op x y).SplitInto (.compound op x' y') (m + n) where
  value σ := by rw [Term.value, Term.value, hx.value, hy.value]
  nodes := by
    rw [successorNodes, successorNodes, hx.nodes, hy.nodes]
    omega
  isNumeral := rfl
  same none := by rw [hx.same (by omega), hy.same (by omega)]

end SplitInto
end Term

/-! ### Terms that divided lists derive -/

/-- A run in front of a term, divided into whatever runs, in front of what the term becomes. -/
theorem Divides.exists_derives_run {t : Term} {run : String}
    (each : ∀ {us k}, Divides ts us k → ∃ u m, DerivesTerm us u m ∧ t.SplitInto u k)
    (zero : FrontsZero ts ↔ t.isNumeral = true) (h : Divides (⟨.successor, run⟩ :: ts) us k) :
    ∃ u m, DerivesTerm us u m ∧ (t.addSuccessors run.length).SplitInto u k := by
  generalize whole : ⟨.successor, run⟩ :: ts = all at h
  induction h generalizing run with
  | nil => cases whole
  | keep _ h =>
    obtain ⟨rfl, rfl⟩ := List.cons.inj whole
    obtain ⟨u, m, derives, split⟩ := each h
    exact ⟨_, _, derives.addSuccessors run, split.addSuccessors run.length⟩
  | @cut _ us k _ first rest length h ih =>
    obtain ⟨⟨⟩, rfl⟩ := List.cons.inj whole
    obtain ⟨u, m, derives, split⟩ := ih rfl
    refine ⟨_, _, derives.addSuccessors first, ?_⟩
    simp only [length, zero]
    exact split.cut

/-- **Lists in which the runs are divided derive a term of the same value,** with a node more for
every division that is not in front of a zero. -/
theorem DerivesTerm.of_divides {t : Term} {l : Nat} (h : DerivesTerm ts t l)
    (divides : Divides ts us k) : ∃ u m, DerivesTerm us u m ∧ t.SplitInto u k := by
  induction h generalizing us k with
  | zero s =>
    cases divides with
    | keep _ none =>
      cases none
      exact ⟨_, _, .zero s, .refl _⟩
  | var name =>
    cases divides with
    | keep _ none =>
      cases none
      exact ⟨_, _, .var name, .refl _⟩
  | numeral run h ih => exact divides.exists_derives_run ih h.frontsZero_iff
  | successor run ht h ih =>
    rw [← Term.addSuccessors_of_isNumeral ht]
    exact divides.exists_derives_run ih h.frontsZero_iff
  | @compound xs ys x y l m op a s b hx hy ihx ihy =>
    have sign : op.sign ≠ .successor ∧ op.sign ≠ .zero := by cases op <;> decide
    have close : TokenKind.closeParen ≠ .successor ∧ TokenKind.closeParen ≠ .zero := by decide
    cases divides with
    | keep _ inner =>
      obtain ⟨xs', _, m, _, rfl, left, behind, rfl⟩ := inner.of_append_cons sign.1 sign.2
      obtain ⟨ys', _, n, _, rfl, right, closed, rfl⟩ := behind.of_append_cons close.1 close.2
      cases closed
      obtain ⟨x', _, derivesX, splitX⟩ := ihx left
      obtain ⟨y', _, derivesY, splitY⟩ := ihy right
      exact ⟨_, _, .compound op a s b derivesX derivesY, splitX.compound op splitY⟩

end Typographical
