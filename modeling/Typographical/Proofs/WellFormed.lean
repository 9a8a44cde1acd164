/-
# What well-formed means

`Formula.isWellFormed` compares sets of variables on its way up.  It never asks
which variables are quantified: between the sides of a compound it takes those
that occur and are not free for them.  That is wrong of formulas in general, where
a quantified variable need not occur, and may be free elsewhere.

`Formula.WellScoped` says what is meant, by places: each quantifier binds
something, and nowhere does a variable stand both under a quantifier of its own
and outside.  In a well-scoped formula the quantified variables are those that
occur and are not free (`Formula.WellScoped.quantifies_iff`), and that is all that
`Formula.isWellFormed` relies on: it looks at a node only once the parts of the
node are found well-scoped (`Formula.isWellFormed_iff_wellScoped`).
-/

import Typographical.Proofs.Occurrence

namespace Typographical
namespace Formula

/-- Quantifiers bind, and keep apart what they bind from what is free. -/
structure WellScoped (F : Formula) : Prop where
  /-- The variable of a quantifier occurs free in its body. -/
  binds : ∀ (q : Quantifier) (v : Variable) (B : Formula),
    (quantification q v B).Within F → B.FreeIn v
  /-- No variable is quantified in a formula inside and free in the same. -/
  apart : ∀ G : Formula, G.Within F → ∀ v, ¬(G.Quantifies v ∧ G.FreeIn v)

/-! ### Through the nodes -/

/-- **What stands inside a well-scoped formula is well-scoped.** -/
theorem WellScoped.of_within {G F : Formula} (h : F.WellScoped) (k : G.Within F) :
    G.WellScoped := by
  constructor
  · intro q v B inside
    exact h.binds q v B (inside.trans k)
  · intro H inside
    exact h.apart H (inside.trans k)

theorem wellScoped_atom (x y : Term) : (atom x y).WellScoped := by
  constructor
  · intro q v B h
    cases within_atom.mp h
  · intro G h v both
    obtain rfl := within_atom.mp h
    exact quantifies_atom both.1

theorem wellScoped_negation {F : Formula} : (negation F).WellScoped ↔ F.WellScoped := by
  constructor
  · intro h
    exact h.of_within (within_negation.mpr (.inr F.within_self))
  · intro hF
    constructor
    · intro q v B h
      rcases within_negation.mp h with h | h
      · cases h
      · exact hF.binds q v B h
    · intro G h v
      rcases within_negation.mp h with rfl | h
      · rw [quantifies_negation, freeIn_negation]
        exact hF.apart F F.within_self v
      · exact hF.apart G h v

theorem wellScoped_compound {c : Connective} {F G : Formula} :
    (compound c F G).WellScoped ↔
      F.WellScoped ∧ G.WellScoped ∧
        ∀ v, ¬((F.Quantifies v ∨ G.Quantifies v) ∧ (F.FreeIn v ∨ G.FreeIn v)) := by
  constructor
  · intro h
    have left : F.Within (compound c F G) := within_compound.mpr (.inr (.inl F.within_self))
    have right : G.Within (compound c F G) := within_compound.mpr (.inr (.inr G.within_self))
    refine ⟨h.of_within left, h.of_within right, ?_⟩
    intro v
    rw [← quantifies_compound (c := c), ← freeIn_compound (c := c)]
    exact h.apart _ (within_self _) v
  · rintro ⟨hF, hG, root⟩
    constructor
    · intro q v B h
      rcases within_compound.mp h with h | h | h
      · cases h
      · exact hF.binds q v B h
      · exact hG.binds q v B h
    · intro H h v
      rcases within_compound.mp h with rfl | h | h
      · rw [quantifies_compound, freeIn_compound]
        exact root v
      · exact hF.apart H h v
      · exact hG.apart H h v

theorem wellScoped_quantification {q : Quantifier} {v : Variable} {B : Formula} :
    (quantification q v B).WellScoped ↔ B.WellScoped ∧ B.FreeIn v := by
  constructor
  · intro h
    have body : B.Within (quantification q v B) := within_quantification.mpr (.inr B.within_self)
    exact ⟨h.of_within body, h.binds q v B (within_self _)⟩
  · rintro ⟨hB, free⟩
    constructor
    · intro r w C h
      rcases within_quantification.mp h with h | h
      · cases h
        exact free
      · exact hB.binds r w C h
    · intro G h w
      rcases within_quantification.mp h with rfl | h
      · rw [quantifies_quantification, freeIn_quantification]
        rintro ⟨rfl | quantified, other, free⟩
        · exact other rfl
        · exact hB.apart B B.within_self w ⟨quantified, free⟩
      · exact hB.apart G h w

/-! ### The quantified variables of a well-scoped formula -/

theorem WellScoped.occurs_of_quantifies {F : Formula} {v : Variable} (h : F.WellScoped)
    (k : F.Quantifies v) : F.Occurs v := by
  induction F with
  | atom x y => exact absurd k quantifies_atom
  | negation F ih =>
    exact occurs_negation.mpr (ih (wellScoped_negation.mp h) (quantifies_negation.mp k))
  | compound c F G ihF ihG =>
    obtain ⟨hF, hG, -⟩ := wellScoped_compound.mp h
    exact occurs_compound.mpr ((quantifies_compound.mp k).imp (ihF hF) (ihG hG))
  | quantification q w B ih =>
    obtain ⟨hB, free⟩ := wellScoped_quantification.mp h
    rcases quantifies_quantification.mp k with rfl | k
    · exact occurs_quantification.mpr free.occurs
    · exact occurs_quantification.mpr (ih hB k)

/-- **In a well-scoped formula what occurs and is not free is what is quantified.** -/
theorem WellScoped.quantifies_iff {F : Formula} {v : Variable} (h : F.WellScoped) :
    F.Quantifies v ↔ F.Occurs v ∧ ¬F.FreeIn v := by
  constructor
  · intro quantified
    refine ⟨h.occurs_of_quantifies quantified, ?_⟩
    intro free
    exact h.apart F F.within_self v ⟨quantified, free⟩
  · rintro ⟨occurs, bound⟩
    exact occurs.freeIn_or_quantifies.resolve_left bound

/-! ### The test -/

theorem mem_capturedVars {F G : Formula} {v : Variable} :
    v ∈ capturedVars F G ↔
      (F.Occurs v ∧ ¬F.FreeIn v) ∧ G.FreeIn v ∨ (G.Occurs v ∧ ¬G.FreeIn v) ∧ F.FreeIn v := by
  simp only [capturedVars, VariableSet.mem_union, VariableSet.mem_intersection,
    VariableSet.mem_complement, occurs_iff, freeIn_iff]

/-- **Between well-scoped sides the captured variables are those that are quantified in one and
free in the other.** -/
theorem isEmpty_capturedVars_iff {F G : Formula} (hF : F.WellScoped) (hG : G.WellScoped) :
    (capturedVars F G).isEmpty = true ↔
      ∀ v, ¬((F.Quantifies v ∨ G.Quantifies v) ∧ (F.FreeIn v ∨ G.FreeIn v)) := by
  rw [VariableSet.isEmpty_iff]
  refine forall_congr' fun v => not_congr ?_
  rw [mem_capturedVars, ← hF.quantifies_iff, ← hG.quantifies_iff]
  constructor
  · rintro (⟨quantified, free⟩ | ⟨quantified, free⟩)
    · exact ⟨.inl quantified, .inr free⟩
    · exact ⟨.inr quantified, .inl free⟩
  · rintro ⟨quantified | quantified, free | free⟩
    · exact absurd ⟨quantified, free⟩ (hF.apart F F.within_self v)
    · exact .inl ⟨quantified, free⟩
    · exact .inr ⟨quantified, free⟩
    · exact absurd ⟨quantified, free⟩ (hG.apart G G.within_self v)

/-- **The test finds the well-scoped formulas.** -/
theorem isWellFormed_iff_wellScoped (F : Formula) : F.isWellFormed = true ↔ F.WellScoped := by
  induction F with
  | atom x y => exact ⟨fun _ => wellScoped_atom x y, fun _ => rfl⟩
  | negation F ih => rw [isWellFormed, wellScoped_negation, ih]
  | compound c F G ihF ihG =>
    rw [isWellFormed, Bool.and_eq_true, Bool.and_eq_true, wellScoped_compound, ihF, ihG, and_assoc]
    exact and_congr_right fun hF => and_congr_right fun hG => isEmpty_capturedVars_iff hF hG
  | quantification q v B ih =>
    rw [isWellFormed, Bool.and_eq_true, wellScoped_quantification, ih, decide_eq_true_iff,
      freeIn_iff]

/-- **What well-formed means.**  A formula is well-formed exactly when it is well-scoped: each
quantifier's variable occurs free in its body, and no formula inside has a variable both quantified
and free.  The variables of a well-formed formula are then its free ones and its quantified ones,
which have none in common, and no quantifier stands in the scope of another of the same variable. -/
theorem isWellFormed_iff (F : Formula) :
    (F.isWellFormed = true ↔
      (∀ (q : Quantifier) (v : Variable) (B : Formula),
        (quantification q v B).Within F → B.FreeIn v) ∧
        ∀ G : Formula, G.Within F → ∀ v, ¬(G.Quantifies v ∧ G.FreeIn v)) ∧
      (F.isWellFormed = true →
        (∀ v, v ∈ F.vars ↔ v ∈ F.freeVars ∨ F.Quantifies v) ∧
        (∀ v, ¬(v ∈ F.freeVars ∧ F.Quantifies v)) ∧
        ∀ (q : Quantifier) (v : Variable) (B : Formula),
          (quantification q v B).Within F → ¬B.Quantifies v) := by
  rw [isWellFormed_iff_wellScoped]
  refine ⟨⟨fun h => ⟨h.binds, h.apart⟩, fun h => ⟨h.1, h.2⟩⟩, ?_⟩
  intro h
  refine ⟨?_, ?_, ?_⟩
  · intro v
    rw [← occurs_iff, ← freeIn_iff]
    constructor
    · intro occurs
      exact occurs.freeIn_or_quantifies
    · rintro (free | quantified)
      · exact free.occurs
      · exact h.occurs_of_quantifies quantified
  · intro v
    rw [← freeIn_iff]
    rintro ⟨free, quantified⟩
    exact h.apart F F.within_self v ⟨quantified, free⟩
  · intro q v B inside quantified
    obtain ⟨hB, free⟩ := wellScoped_quantification.mp (h.of_within inside)
    exact hB.apart B B.within_self v ⟨quantified, free⟩

/-- The hypothesis is met where the sides of a compound quantify the same variable and have another
free. -/
theorem isWellFormed_iff_compound :
    ∃ F : Formula,
      F = compound .implies
        (quantification .forAll ⟨"a"⟩ (atom (.var ⟨"a"⟩) (.var ⟨"b"⟩)))
        (negation (quantification .thereExists ⟨"a"⟩
          (atom (.var ⟨"b"⟩) (.successor 2 (.var ⟨"a"⟩))))) ∧
      F.isWellFormed = true ∧
      (∀ v, v ∈ F.vars ↔ v ∈ F.freeVars ∨ F.Quantifies v) ∧
      (∀ v, ¬(v ∈ F.freeVars ∧ F.Quantifies v)) ∧
      ∀ (q : Quantifier) (v : Variable) (B : Formula),
        (quantification q v B).Within F → ¬B.Quantifies v := by
  refine ⟨_, rfl, ?_⟩
  have passes : isWellFormed (compound .implies
      (quantification .forAll ⟨"a"⟩ (atom (.var ⟨"a"⟩) (.var ⟨"b"⟩)))
      (negation (quantification .thereExists ⟨"a"⟩
        (atom (.var ⟨"b"⟩) (.successor 2 (.var ⟨"a"⟩)))))) = true := by decide
  exact ⟨passes, (isWellFormed_iff _).2 passes⟩

end Formula
end Typographical
