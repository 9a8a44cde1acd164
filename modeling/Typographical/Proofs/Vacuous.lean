/-
# Quantifiers that bind nothing

A finding of the code `VACUOUS_QUANTIFIER` names the place of a quantifier that may be
left out.  `Formula.dropAt` leaves out the quantifiers at a choice of places, all at
once, and `Formula.withoutVacuous` those at the places that findings name.

A part is reported in the whole as it is on its own, a step further down
(`Formula.below_reportsVacuous`).  So leaving out goes through the constructors, and
takes the body of a quantified formula for the formula where the variable is not free
in the body (`Formula.withoutVacuous_quantification`).  Neither the variables nor the
free variables change on the way, hence nothing else comes to bind nothing, and what a
compound captures stays: the diagnosis that is left lists the captures of the first one,
each where its compound has moved to (`Formula.diagnose_withoutVacuous`).
-/

import Typographical.Proofs.Findings
import Typographical.Proofs.Meaning

namespace Typographical

/-! ### Leaving out quantifiers -/

/-- A choice of places. -/
abbrev Places := Path → Bool

/-- The chosen places behind a step, as they are seen from there. -/
def Places.below (out : Places) (s : Step) : Places :=
  fun p => out (s :: p)

/-- The formula with the quantified formulas at the chosen places replaced by their bodies. -/
def Formula.dropAt : Formula → Places → Formula
  | atom x y, _ => atom x y
  | negation F, out => negation (F.dropAt (out.below .formula))
  | compound c F G, out => compound c (F.dropAt (out.below .left)) (G.dropAt (out.below .right))
  | quantification q v B, out =>
    let body := B.dropAt (out.below .formula)
    if out [] then body else quantification q v body

/-- The place without the steps that lead out of the chosen places. -/
def Path.shorten : Path → Places → Path
  | [], _ => []
  | s :: p, out =>
    let rest := shorten p (out.below s)
    if out [] then rest else s :: rest

namespace Formula

/-- The places that findings name as those of quantifiers that bind nothing. -/
def reportsVacuous (F : Formula) (root : String) : Places :=
  fun p => (F.findings root).any fun f =>
    f.code == "VACUOUS_QUANTIFIER" && f.path == p.render root

/-- The formula with every quantifier left out that is reported to bind nothing. -/
def withoutVacuous (F : Formula) (root : String) : Formula :=
  F.dropAt (F.reportsVacuous root)

variable {root : String}

/-! ### What is reported -/

/-- **What is reported are the quantifiers whose variable is not free in the body.** -/
theorem reportsVacuous_iff {F : Formula} {p : Path} :
    F.reportsVacuous root p = true ↔
      ∃ q v B, (quantification q v B).StandsAt F p ∧ ¬B.FreeIn v := by
  simp only [reportsVacuous, findings, List.any_map, List.any_eq_true, Function.comp_apply,
    Bool.and_eq_true, beq_iff_eq]
  constructor
  · rintro ⟨i, listed, code, place⟩
    obtain rfl : i.path = p := Path.render_injective root place
    obtain ⟨G, stands, concerns⟩ := mem_diagnose_iff.mp listed
    cases concerns with
    | capture p c captures =>
      have code : "VARIABLE_CAPTURE" = "VACUOUS_QUANTIFIER" := code
      exact absurd code (by decide)
    | vacuous p q unused => exact ⟨q, _, _, stands, unused⟩
  · rintro ⟨q, v, B, stands, unused⟩
    exact ⟨.vacuous p v, mem_diagnose_iff.mpr ⟨_, stands, .vacuous p q unused⟩, rfl, rfl⟩

/-- **A part is reported in the whole as it is on its own.** -/
theorem below_reportsVacuous {F part : Formula} {s : Step}
    (stands : ∀ (G : Formula) (p : Path), G.StandsAt F (s :: p) ↔ G.StandsAt part p) :
    (F.reportsVacuous root).below s = part.reportsVacuous root := by
  funext p
  show F.reportsVacuous root (s :: p) = part.reportsVacuous root p
  rw [Bool.eq_iff_iff, reportsVacuous_iff, reportsVacuous_iff]
  simp only [stands]

@[simp] theorem below_reportsVacuous_negation {F : Formula} :
    ((negation F).reportsVacuous root).below .formula = F.reportsVacuous root :=
  below_reportsVacuous fun G p => by simp [standsAt_negation]

@[simp] theorem below_reportsVacuous_left {c : Connective} {F G : Formula} :
    ((compound c F G).reportsVacuous root).below .left = F.reportsVacuous root :=
  below_reportsVacuous fun H p => by simp [standsAt_compound]

@[simp] theorem below_reportsVacuous_right {c : Connective} {F G : Formula} :
    ((compound c F G).reportsVacuous root).below .right = G.reportsVacuous root :=
  below_reportsVacuous fun H p => by simp [standsAt_compound]

@[simp] theorem below_reportsVacuous_quantification {q : Quantifier} {v : Variable} {B : Formula} :
    ((quantification q v B).reportsVacuous root).below .formula = B.reportsVacuous root :=
  below_reportsVacuous fun G p => by simp [standsAt_quantification]

@[simp] theorem reportsVacuous_negation_nil {F : Formula} :
    (negation F).reportsVacuous root [] = false := by
  rw [← Bool.not_eq_true, reportsVacuous_iff]
  simp [standsAt_negation]

@[simp] theorem reportsVacuous_compound_nil {c : Connective} {F G : Formula} :
    (compound c F G).reportsVacuous root [] = false := by
  rw [← Bool.not_eq_true, reportsVacuous_iff]
  simp [standsAt_compound]

@[simp] theorem reportsVacuous_quantification_nil {q : Quantifier} {v : Variable} {B : Formula} :
    (quantification q v B).reportsVacuous root [] = true ↔ v ∉ B.freeVars := by
  rw [reportsVacuous_iff, ← freeIn_iff]
  simp [standsAt_quantification]

/-! ### Through the constructors -/

theorem withoutVacuous_negation {F : Formula} :
    (negation F).withoutVacuous root = negation (F.withoutVacuous root) := by
  simp [withoutVacuous, dropAt]

theorem withoutVacuous_compound {c : Connective} {F G : Formula} :
    (compound c F G).withoutVacuous root =
      compound c (F.withoutVacuous root) (G.withoutVacuous root) := by
  simp [withoutVacuous, dropAt]

/-- **A quantifier is left out where its variable is not free in the body.** -/
theorem withoutVacuous_quantification {q : Quantifier} {v : Variable} {B : Formula} :
    (quantification q v B).withoutVacuous root =
      if v ∈ B.freeVars then quantification q v (B.withoutVacuous root)
      else B.withoutVacuous root := by
  simp [withoutVacuous, dropAt, ite_not]

/-! ### What stays -/

theorem vars_withoutVacuous (F : Formula) : (F.withoutVacuous root).vars = F.vars := by
  induction F with
  | atom x y => rfl
  | negation F ih => rw [withoutVacuous_negation, vars, ih, vars]
  | compound c F G ihF ihG => rw [withoutVacuous_compound, vars, ihF, ihG, vars]
  | quantification q v B ih =>
    rw [withoutVacuous_quantification]
    split
    · rw [vars, ih, vars]
    · rw [ih, vars]

theorem freeVars_withoutVacuous (F : Formula) :
    (F.withoutVacuous root).freeVars = F.freeVars := by
  induction F with
  | atom x y => rfl
  | negation F ih => rw [withoutVacuous_negation, freeVars, ih, freeVars]
  | compound c F G ihF ihG => rw [withoutVacuous_compound, freeVars, ihF, ihG, freeVars]
  | quantification q v B ih =>
    rw [withoutVacuous_quantification]
    split
    · rw [freeVars, ih, freeVars]
    · next unused => rw [ih, freeVars, VariableSet.complement_singleton unused]

theorem capturedVars_withoutVacuous (F G : Formula) :
    capturedVars (F.withoutVacuous root) (G.withoutVacuous root) = capturedVars F G := by
  simp only [capturedVars, vars_withoutVacuous, freeVars_withoutVacuous]

theorem holds_withoutVacuous (F : Formula) (σ : Assignment) :
    (F.withoutVacuous root).Holds σ ↔ F.Holds σ := by
  induction F generalizing σ with
  | atom x y => rfl
  | negation F ih =>
    rw [withoutVacuous_negation]
    exact not_congr (ih σ)
  | compound c F G ihF ihG => rw [withoutVacuous_compound, Holds, Holds, ihF, ihG]
  | quantification q v B ih =>
    rw [withoutVacuous_quantification]
    split
    · rw [Holds, Holds, funext fun n => propext (ih (Function.update σ v n))]
    · next unused => rw [ih, holds_quantification_of_not_mem unused]

/-! ### What is left of the diagnosis -/

/-- Where a node comes to stand once the quantifiers that bind nothing are left out. -/
def placeWithoutVacuous (F : Formula) (root : String) (p : Path) : Path :=
  p.shorten (F.reportsVacuous root)

theorem placeWithoutVacuous_negation {F : Formula} (p : Path) :
    (negation F).placeWithoutVacuous root (.formula :: p) =
      .formula :: F.placeWithoutVacuous root p := by
  simp [placeWithoutVacuous, Path.shorten]

theorem placeWithoutVacuous_left {c : Connective} {F G : Formula} (p : Path) :
    (compound c F G).placeWithoutVacuous root (.left :: p) =
      .left :: F.placeWithoutVacuous root p := by
  simp [placeWithoutVacuous, Path.shorten]

theorem placeWithoutVacuous_right {c : Connective} {F G : Formula} (p : Path) :
    (compound c F G).placeWithoutVacuous root (.right :: p) =
      .right :: G.placeWithoutVacuous root p := by
  simp [placeWithoutVacuous, Path.shorten]

theorem placeWithoutVacuous_quantification {q : Quantifier} {v : Variable} {B : Formula}
    (p : Path) :
    (quantification q v B).placeWithoutVacuous root (.formula :: p) =
      if v ∈ B.freeVars then .formula :: B.placeWithoutVacuous root p
      else B.placeWithoutVacuous root p := by
  simp [placeWithoutVacuous, Path.shorten, ite_not]

/-- The issues that are captures. -/
def captures (F : Formula) : List Issue :=
  F.diagnose.filter fun i => i.code == "VARIABLE_CAPTURE"

theorem filter_map_under (s : Step) (l : List Issue) :
    (l.map (Issue.under s)).filter (fun i => i.code == "VARIABLE_CAPTURE") =
      (l.filter fun i => i.code == "VARIABLE_CAPTURE").map (Issue.under s) := by
  rw [List.filter_map]
  congr 2
  funext i
  cases i <;> rfl

theorem captures_negation {F : Formula} :
    (negation F).captures = F.captures.map (Issue.under .formula) :=
  filter_map_under .formula F.diagnose

theorem captures_compound {c : Connective} {F G : Formula} :
    (compound c F G).captures =
      F.captures.map (Issue.under .left) ++ G.captures.map (Issue.under .right) ++
        (compound c F G).ownIssues := by
  rw [captures, diagnose_compound, List.filter_append, List.filter_append, filter_map_under,
    filter_map_under, ← captures, ← captures]
  congr 1
  rw [ownIssues]
  split <;> rfl

theorem captures_quantification {q : Quantifier} {v : Variable} {B : Formula} :
    (quantification q v B).captures = B.captures.map (Issue.under .formula) := by
  rw [captures, diagnose_quantification, List.filter_append, filter_map_under, ← captures,
    ownIssues]
  split
  · exact List.append_nil _
  · exact List.append_nil _

end Formula

/-- The issue with its place moved. -/
def Issue.moved (f : Path → Path) : Issue → Issue
  | capture p c vs => capture (f p) c vs
  | vacuous p v => vacuous (f p) v

/-- Going a step further and moving a place may change turns. -/
theorem Issue.map_moved_map_under {f g : Path → Path} {s : Step} (h : ∀ p, f (s :: p) = s :: g p)
    (l : List Issue) :
    (l.map (Issue.under s)).map (Issue.moved f) =
      (l.map (Issue.moved g)).map (Issue.under s) := by
  rw [List.map_map, List.map_map]
  refine List.map_congr_left fun i _ => ?_
  cases i <;> simp [Issue.moved, Issue.under, h]

namespace Formula

variable {root : String}

/-- **The captures are left, each where its compound has moved to.** -/
theorem diagnose_withoutVacuous (F : Formula) :
    (F.withoutVacuous root).diagnose =
      F.captures.map (Issue.moved (F.placeWithoutVacuous root)) := by
  induction F with
  | atom x y => rfl
  | negation F ih =>
    rw [withoutVacuous_negation, diagnose, ih, captures_negation,
      Issue.map_moved_map_under placeWithoutVacuous_negation]
  | compound c F G ihF ihG =>
    rw [withoutVacuous_compound, diagnose_compound, ihF, ihG, captures_compound, List.map_append,
      List.map_append, Issue.map_moved_map_under placeWithoutVacuous_left,
      Issue.map_moved_map_under placeWithoutVacuous_right]
    congr 1
    rw [ownIssues, ownIssues, capturedVars_withoutVacuous]
    split <;> rfl
  | quantification q v B ih =>
    rw [withoutVacuous_quantification, captures_quantification]
    split
    · next used =>
      rw [diagnose_quantification, ih, ownIssues, freeVars_withoutVacuous, if_pos used,
        List.append_nil]
      refine (Issue.map_moved_map_under (fun p => ?_) _).symm
      rw [placeWithoutVacuous_quantification, if_pos used]
    · next unused =>
      rw [ih, List.map_map]
      refine List.map_congr_left fun i _ => ?_
      cases i <;> simp [Issue.moved, Issue.under, placeWithoutVacuous_quantification, unused]

theorem code_of_mem_diagnose_withoutVacuous {F : Formula} {i : Issue}
    (h : i ∈ (F.withoutVacuous root).diagnose) : i.code = "VARIABLE_CAPTURE" := by
  rw [diagnose_withoutVacuous] at h
  obtain ⟨j, capture, rfl⟩ := List.mem_map.mp h
  have code : j.code = "VARIABLE_CAPTURE" := eq_of_beq (List.mem_filter.mp capture).2
  cases j <;> exact code

theorem captures_withoutVacuous (F : Formula) :
    (F.withoutVacuous root).captures =
      F.captures.map (Issue.moved (F.placeWithoutVacuous root)) := by
  rw [captures, ← diagnose_withoutVacuous, List.filter_eq_self]
  exact fun i listed => beq_iff_eq.mpr (code_of_mem_diagnose_withoutVacuous listed)

theorem filter_findings (F : Formula) :
    ((F.findings root).filter fun f => f.code == "VARIABLE_CAPTURE") =
      F.captures.map (Issue.finding root) :=
  List.filter_map

/-- **A quantifier that is reported to bind nothing may be left out.**  Without all of those that
are reported, at any depth and one below another, a formula says the same under every assignment and
has the same variables and the same free variables.  No quantifier is reported any more, and the
captures are those of the formula, in the same order and with the same variables, each at the place
that is left of its own without the steps out of what was left out. -/
theorem findings_withoutVacuous (F : Formula) (root : String) :
    (∀ σ, (F.withoutVacuous root).Holds σ ↔ F.Holds σ) ∧
      (F.withoutVacuous root).vars = F.vars ∧
      (F.withoutVacuous root).freeVars = F.freeVars ∧
      ((F.withoutVacuous root).findings root).any (fun f => f.code == "VACUOUS_QUANTIFIER") =
        false ∧
      List.Forall₂
        (fun f g => ∃ p : Path, f.path = p.render root ∧
          g = { f with path := (p.shorten (F.reportsVacuous root)).render root })
        ((F.findings root).filter fun f => f.code == "VARIABLE_CAPTURE")
        (((F.withoutVacuous root).findings root).filter fun f => f.code == "VARIABLE_CAPTURE") := by
  refine ⟨F.holds_withoutVacuous, F.vars_withoutVacuous, F.freeVars_withoutVacuous, ?_, ?_⟩
  · rw [findings, List.any_map, List.any_eq_false]
    intro i listed vacuous
    have code : i.code = "VACUOUS_QUANTIFIER" := eq_of_beq vacuous
    rw [code_of_mem_diagnose_withoutVacuous listed] at code
    exact absurd code (by decide)
  · rw [filter_findings, filter_findings, captures_withoutVacuous, List.map_map,
      List.forall₂_map_left_iff, List.forall₂_map_right_iff, List.forall₂_same]
    intro i _
    refine ⟨i.path, rfl, ?_⟩
    cases i <;> rfl

/-- Two quantifiers are left out, one of them below the place of a capture. -/
example :
    let left := quantification .forAll ⟨"a"⟩ (atom (.var ⟨"a"⟩) (.var ⟨"b"⟩))
    let right := atom (.var ⟨"a"⟩) (.numeral 0)
    let F := quantification .forAll ⟨"c"⟩
      (compound .and (quantification .thereExists ⟨"d"⟩ left) right)
    F.withoutVacuous "formula" = compound .and left right ∧
      (F.findings "formula").map Finding.path =
        ["formula.formula.left", "formula.formula", "formula"] ∧
      ((F.withoutVacuous "formula").findings "formula").map Finding.path = ["formula"] := by
  decide

end Formula
end Typographical
