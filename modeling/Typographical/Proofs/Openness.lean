/-
# What open means

`Formula.isOpen` asks of an equation whether it has a variable and of a quantified
formula whether it has no free one, and goes through negations and compounds.  So it
never looks at a quantifier below another: what counts are the places that no
quantifier stands above (`Formula.Exposes`).  A formula is open when a variable occurs
at such a place, or a quantified formula without free variables stands there
(`Formula.isOpen_iff_exposed`).

In the two extremes one of the reasons is left.  Without quantifiers a formula is open
when it has a free variable; without free variables it is open when it has a quantifier,
which is the reverse of what is usually meant (`Formula.isOpen_characterization`).
-/

import Typographical.Proofs.Occurrence

namespace Typographical

/-- What holds of all places above one holds at the root and of those a step further down. -/
theorem Path.forall_above_cons {P : Path → Prop} {s : Step} {p : Path} :
    (∀ p', p' <+: s :: p → p' ≠ s :: p → P p') ↔
      P [] ∧ ∀ p', p' <+: p → p' ≠ p → P (s :: p') := by
  rw [Path.forall_prefix_cons (P := fun p' => p' ≠ s :: p → P p')]
  constructor
  · rintro ⟨root, below⟩
    exact ⟨root nofun, fun p' le other => below p' le fun e => other (List.cons.inj e).2⟩
  · rintro ⟨root, below⟩
    exact ⟨fun _ => root, fun p' le other => below p' le fun e => other (congrArg (s :: ·) e)⟩

namespace Formula

/-- No quantifier stands above the place. -/
def Exposes (F : Formula) (p : Path) : Prop :=
  ∀ p', p' <+: p → p' ≠ p → ∀ v, ¬F.QuantifiedAt p' v

theorem exposes_nil (F : Formula) : F.Exposes [] :=
  fun _ le other => absurd (List.prefix_nil.mp le) other

@[simp] theorem exposes_negation {F : Formula} {p : Path} :
    (negation F).Exposes (.formula :: p) ↔ F.Exposes p := by
  simp [Exposes, Path.forall_above_cons]

@[simp] theorem exposes_compound_left {c : Connective} {F G : Formula} {p : Path} :
    (compound c F G).Exposes (.left :: p) ↔ F.Exposes p := by
  simp [Exposes, Path.forall_above_cons]

@[simp] theorem exposes_compound_right {c : Connective} {F G : Formula} {p : Path} :
    (compound c F G).Exposes (.right :: p) ↔ G.Exposes p := by
  simp [Exposes, Path.forall_above_cons]

/-- A quantifier stands above everything inside it. -/
@[simp] theorem not_exposes_quantification {q : Quantifier} {v : Variable} {B : Formula} {s : Step}
    {p : Path} : ¬(quantification q v B).Exposes (s :: p) := by
  simp [Exposes, Path.forall_above_cons]

/-! ### Variables outside all quantifiers -/

/-- Some variable labels a leaf that no quantifier stands above. -/
def ExposesVariable (F : Formula) : Prop :=
  ∃ p v, F.OccursAt p v ∧ F.Exposes p

theorem exposesVariable_atom {x y : Term} :
    (atom x y).ExposesVariable ↔ ∃ v, v ∈ x.vars ∨ v ∈ y.vars := by
  have exposes (p : Path) : (atom x y).Exposes p := fun _ _ _ _ => quantifiedAt_atom
  simp only [ExposesVariable, exposes, and_true, ← occurs_atom]
  exact exists_comm

theorem exposesVariable_negation {F : Formula} :
    (negation F).ExposesVariable ↔ F.ExposesVariable := by
  rw [ExposesVariable, Path.exists_iff]
  simp [ExposesVariable, and_assoc]

theorem exposesVariable_compound {c : Connective} {F G : Formula} :
    (compound c F G).ExposesVariable ↔ F.ExposesVariable ∨ G.ExposesVariable := by
  rw [ExposesVariable, Path.exists_iff]
  simp [ExposesVariable, or_and_right, exists_or, and_assoc]

theorem not_exposesVariable_quantification {q : Quantifier} {v : Variable} {B : Formula} :
    ¬(quantification q v B).ExposesVariable := by
  rw [ExposesVariable, Path.exists_iff]
  simp

/-- A variable outside all quantifiers is free. -/
theorem ExposesVariable.exists_freeIn {F : Formula} (h : F.ExposesVariable) :
    ∃ v, F.FreeIn v := by
  induction F with
  | atom x y =>
    simp only [freeIn_atom]
    exact exposesVariable_atom.mp h
  | negation F ih =>
    simp only [freeIn_negation]
    exact ih (exposesVariable_negation.mp h)
  | compound c F G ihF ihG =>
    simp only [freeIn_compound, exists_or]
    exact (exposesVariable_compound.mp h).imp ihF ihG
  | quantification q v B ih => exact absurd h not_exposesVariable_quantification

/-- Without quantifiers every free variable is outside all of them. -/
theorem FreeIn.exposesVariable {F : Formula} {v : Variable} (h : F.FreeIn v)
    (plain : ∀ w, ¬F.Quantifies w) : F.ExposesVariable := by
  obtain ⟨p, occurs, -⟩ := h
  exact ⟨p, v, occurs, fun p' _ _ w quantified => plain w ⟨p', quantified⟩⟩

/-! ### Outermost quantifications -/

/-- Some quantified formula without free variables stands inside no other. -/
def ExposesClosed (F : Formula) : Prop :=
  ∃ p q v B, (quantification q v B).StandsAt F p ∧ F.Exposes p ∧
    ∀ w, ¬(quantification q v B).FreeIn w

theorem not_exposesClosed_atom {x y : Term} : ¬(atom x y).ExposesClosed := by
  simp [ExposesClosed, standsAt_atom]

theorem exposesClosed_negation {F : Formula} :
    (negation F).ExposesClosed ↔ F.ExposesClosed := by
  rw [ExposesClosed, Path.exists_iff]
  simp [ExposesClosed, standsAt_negation, and_assoc]

theorem exposesClosed_compound {c : Connective} {F G : Formula} :
    (compound c F G).ExposesClosed ↔ F.ExposesClosed ∨ G.ExposesClosed := by
  rw [ExposesClosed, Path.exists_iff]
  simp [ExposesClosed, standsAt_compound, or_and_right, exists_or, and_assoc]

theorem exposesClosed_quantification {q : Quantifier} {v : Variable} {B : Formula} :
    (quantification q v B).ExposesClosed ↔ ∀ w, ¬(quantification q v B).FreeIn w := by
  rw [ExposesClosed, Path.exists_iff]
  simp [standsAt_quantification, exposes_nil, and_assoc]

/-- An outermost quantification is one. -/
theorem ExposesClosed.exists_quantifies {F : Formula} (h : F.ExposesClosed) :
    ∃ v, F.Quantifies v := by
  obtain ⟨p, q, v, B, stands, -⟩ := h
  exact ⟨v, p, q, B, stands⟩

/-- Without free variables every outermost quantification has none. -/
theorem Quantifies.exposesClosed {F : Formula} {v : Variable} (h : F.Quantifies v)
    (closed : ∀ w, ¬F.FreeIn w) : F.ExposesClosed := by
  induction F with
  | atom x y => exact absurd h quantifies_atom
  | negation F ih =>
    simp only [freeIn_negation] at closed
    exact exposesClosed_negation.mpr (ih (quantifies_negation.mp h) closed)
  | compound c F G ihF ihG =>
    simp only [freeIn_compound, not_or] at closed
    rw [exposesClosed_compound]
    refine (quantifies_compound.mp h).imp ?_ ?_
    · exact fun left => ihF left fun w => (closed w).1
    · exact fun right => ihG right fun w => (closed w).2
  | quantification q w B ih => exact exposesClosed_quantification.mpr closed

/-! ### Openness -/

/-- **A formula is open when a variable occurs outside all quantifiers, or an outermost
quantification has no free variable.** -/
theorem isOpen_iff_exposed (F : Formula) :
    F.isOpen = true ↔ F.ExposesVariable ∨ F.ExposesClosed := by
  induction F with
  | atom x y =>
    rw [isOpen, or_iff_left not_exposesClosed_atom, exposesVariable_atom, Bool.not_eq_true',
      ← Bool.not_eq_true, VariableSet.isEmpty_iff, Classical.not_forall_not]
    exact exists_congr fun v => VariableSet.mem_union
  | negation F ih => rw [isOpen, ih, exposesVariable_negation, exposesClosed_negation]
  | compound c F G ihF ihG =>
    rw [isOpen, Bool.or_eq_true, ihF, ihG, exposesVariable_compound, exposesClosed_compound,
      or_or_or_comm]
  | quantification q v B ih =>
    rw [isOpen, VariableSet.isEmpty_iff, or_iff_right not_exposesVariable_quantification,
      exposesClosed_quantification]
    exact forall_congr' fun w => not_congr freeIn_iff.symm

/-- **What openness comes to.**  A formula is open exactly when some variable occurs outside the
scope of every quantifier, or some quantification that stands inside no other has no free variable.
So without quantifiers it is open exactly when it has a free variable, and without free variables
exactly when it has a quantifier. -/
theorem isOpen_characterization (F : Formula) :
    (F.isOpen = true ↔
      (∃ p v, F.OccursAt p v ∧ F.Exposes p) ∨
        ∃ p q v B, (quantification q v B).StandsAt F p ∧ F.Exposes p ∧
          ∀ w, ¬(quantification q v B).FreeIn w) ∧
      ((∀ v, ¬F.Quantifies v) → (F.isOpen = true ↔ ∃ v, v ∈ F.freeVars)) ∧
      ((∀ v, v ∉ F.freeVars) → (F.isOpen = true ↔ ∃ v, F.Quantifies v)) := by
  refine ⟨F.isOpen_iff_exposed, ?_, ?_⟩
  · intro plain
    have noQuantification : ¬F.ExposesClosed := fun h =>
      h.exists_quantifies.elim fun v quantified => plain v quantified
    simp only [isOpen_iff_exposed, or_iff_left noQuantification, ← freeIn_iff]
    constructor
    · exact ExposesVariable.exists_freeIn
    · rintro ⟨v, free⟩
      exact free.exposesVariable plain
  · intro closed
    simp only [← freeIn_iff] at closed
    have noVariable : ¬F.ExposesVariable := fun h =>
      h.exists_freeIn.elim fun v free => closed v free
    rw [isOpen_iff_exposed, or_iff_right noVariable]
    constructor
    · exact ExposesClosed.exists_quantifies
    · rintro ⟨v, quantified⟩
      exact quantified.exposesClosed closed

/-- The hypotheses are met by the negation of an equation, and by a sentence with one quantifier
below another: both are open, and the second is so for its quantifiers alone. -/
theorem isOpen_characterization_extremes :
    ∃ F G : Formula,
      F = negation (atom (.var ⟨"a"⟩) (.numeral 0)) ∧
      G = compound .implies (atom (.numeral 0) (.numeral 1)) (quantification .forAll ⟨"a"⟩
        (quantification .thereExists ⟨"b"⟩ (atom (.var ⟨"a"⟩) (.successor 1 (.var ⟨"b"⟩))))) ∧
      (∀ v, ¬F.Quantifies v) ∧ (F.isOpen = true ↔ ∃ v, v ∈ F.freeVars) ∧ F.isOpen = true ∧
      (∀ v, v ∉ G.freeVars) ∧ (G.isOpen = true ↔ ∃ v, G.Quantifies v) ∧ G.isOpen = true := by
  let F := negation (atom (.var ⟨"a"⟩) (.numeral 0))
  let G := compound .implies (atom (.numeral 0) (.numeral 1)) (quantification .forAll ⟨"a"⟩
    (quantification .thereExists ⟨"b"⟩ (atom (.var ⟨"a"⟩) (.successor 1 (.var ⟨"b"⟩)))))
  have plain (v : Variable) : ¬F.Quantifies v := fun h =>
    quantifies_atom (quantifies_negation.mp h)
  have closed : ∀ v, v ∉ G.freeVars := VariableSet.isEmpty_iff.mp (by decide)
  obtain ⟨-, ofVariables, -⟩ := isOpen_characterization F
  obtain ⟨-, -, ofQuantifiers⟩ := isOpen_characterization G
  exact ⟨F, G, rfl, rfl, plain, ofVariables plain, by decide, closed, ofQuantifiers closed,
    by decide⟩

end Formula
end Typographical
