/-
# Occurrences, bound and free

What a variable does in a formula is told by places: it occurs where it labels a
leaf, it is quantified where a quantifier names it, and an occurrence is free when
no quantifier of the variable stands on the way from the root to it.  All three
are read off `Formula.parts`, the list of nodes with their places.

The lemmas named after the constructors say how each notion goes through a node;
everything else follows from them.  `Formula.vars_and_freeVars_iff` is the meaning
of `Formula.vars` and `Formula.freeVars`.
-/

import Typographical.Formula.Path

namespace Typographical

/-! ### Nodes and their places -/

@[simp] theorem mem_map_under_nil {s : Step} {l : List (Path × Node)} {n : Node} :
    ([], n) ∉ l.map (Node.under s) := by
  simp [Node.under]

@[simp] theorem mem_map_under_cons {s s' : Step} {p : Path} {l : List (Path × Node)} {n : Node} :
    (s' :: p, n) ∈ l.map (Node.under s) ↔ s' = s ∧ (p, n) ∈ l := by
  simp only [List.mem_map, Node.under, Prod.mk.injEq, List.cons.injEq]
  constructor
  · rintro ⟨⟨p', n'⟩, h, ⟨rfl, rfl⟩, rfl⟩
    exact ⟨rfl, h⟩
  · rintro ⟨rfl, h⟩
    exact ⟨(p, n), h, ⟨rfl, rfl⟩, rfl⟩

theorem Path.exists_iff {P : Path → Prop} : (∃ p, P p) ↔ P [] ∨ ∃ s p, P (s :: p) := by
  constructor
  · rintro ⟨_ | ⟨s, p⟩, h⟩
    · exact .inl h
    · exact .inr ⟨s, p, h⟩
  · rintro (h | ⟨s, p, h⟩)
    · exact ⟨_, h⟩
    · exact ⟨_, h⟩

theorem Path.forall_prefix_cons {P : Path → Prop} {s : Step} {p : Path} :
    (∀ p', p' <+: s :: p → P p') ↔ P [] ∧ ∀ p', p' <+: p → P (s :: p') := by
  constructor
  · intro h
    exact ⟨h _ List.nil_prefix, fun p' hp => h _ ((List.prefix_cons_inj s).mpr hp)⟩
  · rintro ⟨root, below⟩ p' hp
    rcases List.prefix_cons_iff.mp hp with rfl | ⟨rest, rfl, le⟩
    · exact root
    · exact below rest le

namespace Term

/-- The nodes of a term are terms. -/
theorem formula_notMem_parts (t : Term) (p : Path) (F : Formula) :
    (p, Node.formula F) ∉ t.parts := by
  induction t generalizing p with
  | numeral n => simp [parts]
  | var v => simp [parts]
  | successor q t ih => cases p <;> simp [parts, ih]
  | compound op x y ihx ihy => cases p <;> simp [parts, ihx, ihy]

/-- **The variables of a term are the labels of its leaves.** -/
theorem exists_mem_parts_iff (t : Term) (v : Variable) :
    (∃ p, (p, Node.term (.var v)) ∈ t.parts) ↔ v ∈ t.vars := by
  induction t with
  | numeral n => simp [parts, vars, VariableSet.not_mem_empty]
  | var w => simp [parts, vars, VariableSet.mem_singleton]
  | successor q t ih =>
    rw [Path.exists_iff, vars, ← ih]
    simp [parts]
  | compound op x y ihx ihy =>
    rw [Path.exists_iff, vars, VariableSet.mem_union, ← ihx, ← ihy]
    simp [parts, exists_or]

end Term

namespace Formula

/-- The variable labels the leaf at the place. -/
def OccursAt (F : Formula) (p : Path) (v : Variable) : Prop :=
  (p, Node.term (.var v)) ∈ F.parts

/-- A quantifier of the variable stands at the place. -/
def QuantifiedAt (F : Formula) (p : Path) (v : Variable) : Prop :=
  ∃ q B, (p, Node.formula (quantification q v B)) ∈ F.parts

/-- The variable labels the leaf at the place, and no quantifier of it stands on the way there. -/
def FreeAt (F : Formula) (p : Path) (v : Variable) : Prop :=
  F.OccursAt p v ∧ ∀ p', p' <+: p → ¬F.QuantifiedAt p' v

/-- The variable labels some leaf. -/
def Occurs (F : Formula) (v : Variable) : Prop :=
  ∃ p, F.OccursAt p v

/-- The variable labels some leaf outside all quantifiers of it. -/
def FreeIn (F : Formula) (v : Variable) : Prop :=
  ∃ p, F.FreeAt p v

/-- Some quantifier names the variable. -/
def Quantifies (F : Formula) (v : Variable) : Prop :=
  ∃ p, F.QuantifiedAt p v

/-- The formula stands at the place. -/
def StandsAt (G F : Formula) (p : Path) : Prop :=
  (p, Node.formula G) ∈ F.parts

/-- The first formula is the second or stands inside it. -/
def Within (G F : Formula) : Prop :=
  ∃ p, (p, Node.formula G) ∈ F.parts

/-! ### What stands where -/

theorem standsAt_atom {G : Formula} {x y : Term} {p : Path} :
    G.StandsAt (atom x y) p ↔ p = [] ∧ G = atom x y := by
  cases p <;> simp [StandsAt, parts, Term.formula_notMem_parts, -List.mem_map]

theorem standsAt_negation {G F : Formula} {p : Path} :
    G.StandsAt (negation F) p ↔
      p = [] ∧ G = negation F ∨ ∃ p', p = .formula :: p' ∧ G.StandsAt F p' := by
  cases p <;> simp [StandsAt, parts, and_assoc, -List.mem_map]

theorem standsAt_compound {c : Connective} {H F G : Formula} {p : Path} :
    H.StandsAt (compound c F G) p ↔
      p = [] ∧ H = compound c F G ∨ (∃ p', p = .left :: p' ∧ H.StandsAt F p') ∨
        ∃ p', p = .right :: p' ∧ H.StandsAt G p' := by
  cases p <;> simp [StandsAt, parts, and_assoc, -List.mem_map]

theorem standsAt_quantification {q : Quantifier} {v : Variable} {G B : Formula} {p : Path} :
    G.StandsAt (quantification q v B) p ↔
      p = [] ∧ G = quantification q v B ∨ ∃ p', p = .formula :: p' ∧ G.StandsAt B p' := by
  cases p <;> simp [StandsAt, parts, and_assoc, -List.mem_map]

/-! ### Formulas inside a formula -/

theorem within_atom {G : Formula} {x y : Term} : G.Within (atom x y) ↔ G = atom x y := by
  rw [Within, Path.exists_iff]
  simp [parts, Term.formula_notMem_parts]

theorem within_negation {G F : Formula} :
    G.Within (negation F) ↔ G = negation F ∨ G.Within F := by
  rw [Within, Path.exists_iff]
  simp [parts, Within]

theorem within_compound {c : Connective} {H F G : Formula} :
    H.Within (compound c F G) ↔ H = compound c F G ∨ H.Within F ∨ H.Within G := by
  rw [Within, Path.exists_iff]
  simp [parts, Within, exists_or]

theorem within_quantification {q : Quantifier} {v : Variable} {G B : Formula} :
    G.Within (quantification q v B) ↔ G = quantification q v B ∨ G.Within B := by
  rw [Within, Path.exists_iff]
  simp [parts, Within]

theorem within_self (F : Formula) : F.Within F := by
  refine ⟨[], ?_⟩
  cases F <;> exact List.mem_cons_self

/-- What stands inside a formula inside a formula stands inside that. -/
theorem Within.trans {H G F : Formula} (h : H.Within G) (k : G.Within F) : H.Within F := by
  induction F with
  | atom x y =>
    obtain rfl := within_atom.mp k
    exact h
  | negation F ih =>
    rcases within_negation.mp k with rfl | k
    · exact h
    · exact within_negation.mpr (.inr (ih k))
  | compound c F F' ihF ihF' =>
    rcases within_compound.mp k with rfl | k | k
    · exact h
    · exact within_compound.mpr (.inr (.inl (ihF k)))
    · exact within_compound.mpr (.inr (.inr (ihF' k)))
  | quantification q v B ih =>
    rcases within_quantification.mp k with rfl | k
    · exact h
    · exact within_quantification.mpr (.inr (ih k))

/-! ### Quantified variables -/

@[simp] theorem quantifiedAt_atom {x y : Term} {p : Path} {v : Variable} :
    ¬(atom x y).QuantifiedAt p v := by
  cases p <;> simp [QuantifiedAt, parts, Term.formula_notMem_parts]

@[simp] theorem quantifiedAt_negation_nil {F : Formula} {v : Variable} :
    ¬(negation F).QuantifiedAt [] v := by
  simp [QuantifiedAt, parts, -List.mem_map]

@[simp] theorem quantifiedAt_negation_cons {F : Formula} {s : Step} {p : Path} {v : Variable} :
    (negation F).QuantifiedAt (s :: p) v ↔ s = .formula ∧ F.QuantifiedAt p v := by
  simp [QuantifiedAt, parts, -List.mem_map]

@[simp] theorem quantifiedAt_compound_nil {c : Connective} {F G : Formula} {v : Variable} :
    ¬(compound c F G).QuantifiedAt [] v := by
  simp [QuantifiedAt, parts, -List.mem_map]

@[simp] theorem quantifiedAt_compound_cons {c : Connective} {F G : Formula} {s : Step} {p : Path}
    {v : Variable} :
    (compound c F G).QuantifiedAt (s :: p) v ↔
      s = .left ∧ F.QuantifiedAt p v ∨ s = .right ∧ G.QuantifiedAt p v := by
  simp [QuantifiedAt, parts, -List.mem_map, exists_or]

@[simp] theorem quantifiedAt_quantification_nil {q : Quantifier} {w v : Variable} {B : Formula} :
    (quantification q w B).QuantifiedAt [] v ↔ v = w := by
  simp [QuantifiedAt, parts, -List.mem_map]

@[simp] theorem quantifiedAt_quantification_cons {q : Quantifier} {w v : Variable} {B : Formula}
    {s : Step} {p : Path} :
    (quantification q w B).QuantifiedAt (s :: p) v ↔ s = .formula ∧ B.QuantifiedAt p v := by
  simp [QuantifiedAt, parts, -List.mem_map]

theorem quantifies_atom {x y : Term} {v : Variable} : ¬(atom x y).Quantifies v := by
  simp [Quantifies]

theorem quantifies_negation {F : Formula} {v : Variable} :
    (negation F).Quantifies v ↔ F.Quantifies v := by
  rw [Quantifies, Path.exists_iff]
  simp [Quantifies]

theorem quantifies_compound {c : Connective} {F G : Formula} {v : Variable} :
    (compound c F G).Quantifies v ↔ F.Quantifies v ∨ G.Quantifies v := by
  rw [Quantifies, Path.exists_iff]
  simp [Quantifies, exists_or]

theorem quantifies_quantification {q : Quantifier} {w v : Variable} {B : Formula} :
    (quantification q w B).Quantifies v ↔ v = w ∨ B.Quantifies v := by
  rw [Quantifies, Path.exists_iff]
  simp [Quantifies]

/-! ### Occurrences -/

@[simp] theorem occursAt_nil {F : Formula} {v : Variable} : ¬F.OccursAt [] v := by
  cases F <;> simp [OccursAt, parts, -List.mem_map]

@[simp] theorem occursAt_negation_cons {F : Formula} {s : Step} {p : Path} {v : Variable} :
    (negation F).OccursAt (s :: p) v ↔ s = .formula ∧ F.OccursAt p v := by
  simp [OccursAt, parts, -List.mem_map]

@[simp] theorem occursAt_compound_cons {c : Connective} {F G : Formula} {s : Step} {p : Path}
    {v : Variable} :
    (compound c F G).OccursAt (s :: p) v ↔
      s = .left ∧ F.OccursAt p v ∨ s = .right ∧ G.OccursAt p v := by
  simp [OccursAt, parts, -List.mem_map]

@[simp] theorem occursAt_quantification_cons {q : Quantifier} {w v : Variable} {B : Formula}
    {s : Step} {p : Path} :
    (quantification q w B).OccursAt (s :: p) v ↔ s = .formula ∧ B.OccursAt p v := by
  simp [OccursAt, parts, -List.mem_map]

theorem occurs_atom {x y : Term} {v : Variable} :
    (atom x y).Occurs v ↔ v ∈ x.vars ∨ v ∈ y.vars := by
  rw [Occurs, Path.exists_iff, ← Term.exists_mem_parts_iff, ← Term.exists_mem_parts_iff]
  simp [OccursAt, parts, exists_or]

theorem occurs_negation {F : Formula} {v : Variable} : (negation F).Occurs v ↔ F.Occurs v := by
  rw [Occurs, Path.exists_iff]
  simp [Occurs]

theorem occurs_compound {c : Connective} {F G : Formula} {v : Variable} :
    (compound c F G).Occurs v ↔ F.Occurs v ∨ G.Occurs v := by
  rw [Occurs, Path.exists_iff]
  simp [Occurs, exists_or]

theorem occurs_quantification {q : Quantifier} {w v : Variable} {B : Formula} :
    (quantification q w B).Occurs v ↔ B.Occurs v := by
  rw [Occurs, Path.exists_iff]
  simp [Occurs]

/-- **The variables of a formula are those that occur in it.** -/
theorem occurs_iff {F : Formula} {v : Variable} : F.Occurs v ↔ v ∈ F.vars := by
  induction F with
  | atom x y => rw [occurs_atom, vars, VariableSet.mem_union]
  | negation F ih => rw [occurs_negation, vars, ih]
  | compound c F G ihF ihG => rw [occurs_compound, vars, VariableSet.mem_union, ihF, ihG]
  | quantification q w B ih => rw [occurs_quantification, vars, ih]

/-! ### Free occurrences -/

theorem freeIn_atom {x y : Term} {v : Variable} :
    (atom x y).FreeIn v ↔ v ∈ x.vars ∨ v ∈ y.vars := by
  rw [← occurs_atom]
  simp [FreeIn, FreeAt, Occurs]

theorem freeIn_negation {F : Formula} {v : Variable} : (negation F).FreeIn v ↔ F.FreeIn v := by
  rw [FreeIn, Path.exists_iff]
  simp [FreeAt, Path.forall_prefix_cons, FreeIn, and_assoc]

theorem freeIn_compound {c : Connective} {F G : Formula} {v : Variable} :
    (compound c F G).FreeIn v ↔ F.FreeIn v ∨ G.FreeIn v := by
  rw [FreeIn, Path.exists_iff]
  simp [FreeAt, Path.forall_prefix_cons, FreeIn, or_and_right, exists_or, and_assoc]

theorem freeIn_quantification {q : Quantifier} {w v : Variable} {B : Formula} :
    (quantification q w B).FreeIn v ↔ v ≠ w ∧ B.FreeIn v := by
  rw [FreeIn, Path.exists_iff]
  simp [FreeAt, Path.forall_prefix_cons, FreeIn, and_assoc, and_left_comm]

/-- **The free variables of a formula are those that occur free in it.** -/
theorem freeIn_iff {F : Formula} {v : Variable} : F.FreeIn v ↔ v ∈ F.freeVars := by
  induction F with
  | atom x y => rw [freeIn_atom, freeVars, VariableSet.mem_union]
  | negation F ih => rw [freeIn_negation, freeVars, ih]
  | compound c F G ihF ihG => rw [freeIn_compound, freeVars, VariableSet.mem_union, ihF, ihG]
  | quantification q w B ih =>
    rw [freeIn_quantification, freeVars, VariableSet.mem_complement, VariableSet.mem_singleton, ih,
      and_comm]

/-- A free occurrence is an occurrence. -/
theorem FreeIn.occurs {F : Formula} {v : Variable} (h : F.FreeIn v) : F.Occurs v :=
  h.imp fun _ free => free.1

/-- **A variable that occurs is free or quantified.** -/
theorem Occurs.freeIn_or_quantifies {F : Formula} {v : Variable} (h : F.Occurs v) :
    F.FreeIn v ∨ F.Quantifies v := by
  by_cases quantified : F.Quantifies v
  · exact .inr quantified
  · obtain ⟨p, occurs⟩ := h
    exact .inl ⟨p, occurs, fun p' _ at_p' => quantified ⟨p', at_p'⟩⟩

/-- **What is not free stands under a quantifier of it wherever it stands.** -/
theorem not_freeIn_iff {F : Formula} {v : Variable} :
    ¬F.FreeIn v ↔ ∀ p, F.OccursAt p v → ∃ p', p' <+: p ∧ F.QuantifiedAt p' v := by
  constructor
  · intro notFree p occurs
    refine Classical.byContradiction fun none => ?_
    exact notFree ⟨p, occurs, fun p' le quantified => none ⟨p', le, quantified⟩⟩
  · rintro all ⟨p, occurs, outside⟩
    obtain ⟨p', le, quantified⟩ := all p occurs
    exact outside p' le quantified

/-! ### What a formula mentions -/

/-- The variable stands in a term of the formula or behind a quantifier. -/
def Mentions (F : Formula) (v : Variable) : Prop :=
  F.Occurs v ∨ F.Quantifies v

theorem mentions_negation {F : Formula} {v : Variable} :
    (negation F).Mentions v ↔ F.Mentions v := by
  rw [Mentions, occurs_negation, quantifies_negation, Mentions]

theorem mentions_compound {c : Connective} {F G : Formula} {v : Variable} :
    (compound c F G).Mentions v ↔ F.Mentions v ∨ G.Mentions v := by
  rw [Mentions, occurs_compound, quantifies_compound, Mentions, Mentions]
  exact or_or_or_comm

theorem mentions_quantification {q : Quantifier} {w v : Variable} {B : Formula} :
    (quantification q w B).Mentions v ↔ v = w ∨ B.Mentions v := by
  rw [Mentions, occurs_quantification, quantifies_quantification, Mentions]
  exact or_left_comm

theorem mentions_of_mem_vars {F : Formula} {v : Variable} (h : v ∈ F.vars) : F.Mentions v :=
  .inl (occurs_iff.mpr h)

theorem mentions_of_mem_freeVars {F : Formula} {v : Variable} (h : v ∈ F.freeVars) :
    F.Mentions v :=
  .inl (freeIn_iff.mpr h).occurs

/-- What a part mentions, the whole mentions. -/
theorem Mentions.of_within {G F : Formula} {v : Variable} (h : G.Mentions v) (k : G.Within F) :
    F.Mentions v := by
  induction F with
  | atom x y =>
    obtain rfl := within_atom.mp k
    exact h
  | negation F ih =>
    rcases within_negation.mp k with rfl | k
    · exact h
    · exact mentions_negation.mpr (ih k)
  | compound c F F' ihF ihF' =>
    rcases within_compound.mp k with rfl | k | k
    · exact h
    · exact mentions_compound.mpr (.inl (ihF k))
    · exact mentions_compound.mpr (.inr (ihF' k))
  | quantification q w B ih =>
    rcases within_quantification.mp k with rfl | k
    · exact h
    · exact mentions_quantification.mpr (.inr (ih k))

/-! ### The meaning of the questions -/

/-- **Which variables a formula has, and which of them are free.**  It has those that label a leaf,
and those are free that label a leaf on the way to which no quantifier of them stands.  So the free
variables are among the variables, and what they leave out is what occurs and stands under a
quantifier of it wherever it does. -/
theorem vars_and_freeVars_iff (F : Formula) (v : Variable) :
    (v ∈ F.vars ↔ ∃ p, F.OccursAt p v) ∧
      (v ∈ F.freeVars ↔
        ∃ p, F.OccursAt p v ∧ ∀ p', p' <+: p → ¬F.QuantifiedAt p' v) ∧
      (v ∈ F.freeVars → v ∈ F.vars) ∧
      (v ∈ F.vars.complement F.freeVars ↔
        (∃ p, F.OccursAt p v) ∧
          ∀ p, F.OccursAt p v → ∃ p', p' <+: p ∧ F.QuantifiedAt p' v) := by
  refine ⟨occurs_iff.symm, freeIn_iff.symm, ?_, ?_⟩
  · rw [← occurs_iff, ← freeIn_iff]
    exact FreeIn.occurs
  · rw [VariableSet.mem_complement, ← occurs_iff, ← freeIn_iff, not_freeIn_iff]
    rfl

/-- Where a variable is quantified on one side of a compound and free on the other, and another is
quantified twice, once in the scope of the other time. -/
theorem vars_and_freeVars_iff_shadowed :
    ∃ F : Formula,
      F = compound .and
        (quantification .forAll ⟨"a"⟩ (compound .or (atom (.var ⟨"a"⟩) (.var ⟨"b"⟩))
          (quantification .thereExists ⟨"a"⟩ (atom (.successor 2 (.var ⟨"a"⟩)) (.numeral 0)))))
        (quantification .forAll ⟨"b"⟩ (atom (.var ⟨"b"⟩) (.numeral 1))) ∧
      ⟨"b"⟩ ∈ F.freeVars ∧ ⟨"b"⟩ ∈ F.vars ∧
      ∀ p, F.OccursAt p ⟨"a"⟩ → ∃ p', p' <+: p ∧ F.QuantifiedAt p' ⟨"a"⟩ := by
  let F := compound .and
    (quantification .forAll ⟨"a"⟩ (compound .or (atom (.var ⟨"a"⟩) (.var ⟨"b"⟩))
      (quantification .thereExists ⟨"a"⟩ (atom (.successor 2 (.var ⟨"a"⟩)) (.numeral 0)))))
    (quantification .forAll ⟨"b"⟩ (atom (.var ⟨"b"⟩) (.numeral 1)))
  have free : ⟨"b"⟩ ∈ F.freeVars := by decide
  have bound : ⟨"a"⟩ ∈ F.vars.complement F.freeVars := by decide
  obtain ⟨-, -, has, -⟩ := vars_and_freeVars_iff F ⟨"b"⟩
  obtain ⟨-, -, -, under⟩ := vars_and_freeVars_iff F ⟨"a"⟩
  exact ⟨F, rfl, free, has free, (under.mp bound).2⟩

end Formula
end Typographical
