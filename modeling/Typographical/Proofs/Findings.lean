/-
# Which issues are listed

`Formula.diagnose` goes through a formula node by node, and what it lists is
decided node by node.  `Issue.Concerns` says which issue a node gives rise to, by
what occurs and is quantified where, and an issue is listed exactly where it
concerns the node that stands there (`Formula.mem_diagnose_iff`).

The places of the issues come in one order, the parts of a node before the node
and the left part before the right (`Path.Before`, `Formula.pairwise_diagnose`).  So
no place is listed twice, and since a place can be read off its rendering
(`Path.render_injective`), no two findings name the same place.
-/

import Mathlib.Data.List.Forall2
import Typographical.Proofs.WellFormed
import Typographical.Report

namespace Typographical

/-! ### Places -/

/-- The order of places in which the parts of a node come before the node, and its left part comes
before its right. -/
inductive Path.Before : Path → Path → Prop
  | part (s : Step) (p : Path) : Before (s :: p) []
  | sides (p q : Path) : Before (.left :: p) (.right :: q)
  | step (s : Step) {p q : Path} (h : Before p q) : Before (s :: p) (s :: q)

theorem Path.Before.ne {p q : Path} (h : Path.Before p q) : p ≠ q := by
  induction h with
  | part s p => exact List.cons_ne_nil s p
  | sides p q => nofun
  | step s h ih => exact fun e => ih (List.cons.inj e).2

theorem Path.toList_render (root : String) (p : Path) :
    (Path.render root p).toList = root.toList ++ p.flatMap fun s => '.' :: s.word.toList := by
  induction p generalizing root with
  | nil => simp [Path.render]
  | cons s p ih =>
    have further : Path.render root (s :: p) = Path.render (root ++ "." ++ s.word) p := rfl
    rw [further, ih]
    simp

/-- No step's word begins as another's does. -/
theorem Step.eq_of_word_append {s t : Step} {l m : List Char}
    (h : s.word.toList ++ l = t.word.toList ++ m) : s = t := by
  cases s <;> cases t <;> first | rfl | cases h

/-- **A rendered place tells the place.** -/
theorem Path.render_injective (root : String) : Function.Injective (Path.render root) := by
  intro p q h
  have steps := congrArg String.toList h
  rw [toList_render, toList_render, List.append_cancel_left_eq] at steps
  clear h
  induction p generalizing q with
  | nil =>
    cases q with
    | nil => rfl
    | cons t q => cases steps
  | cons s p ih =>
    cases q with
    | nil => cases steps
    | cons t q =>
      rw [List.flatMap_cons, List.flatMap_cons, List.cons_append, List.cons_append] at steps
      have words := (List.cons.inj steps).2
      obtain rfl := Step.eq_of_word_append words
      rw [ih (List.append_cancel_left words)]

/-! ### Captured variables -/

namespace Formula

/-- The variable occurs, and each of its occurrences stands under a quantifier of it. -/
def BoundIn (F : Formula) (v : Variable) : Prop :=
  F.Occurs v ∧ ∀ p, F.OccursAt p v → ∃ p', p' <+: p ∧ F.QuantifiedAt p' v

/-- The variable is bound on one side and free on the other. -/
def Captured (F G : Formula) (v : Variable) : Prop :=
  F.BoundIn v ∧ G.FreeIn v ∨ G.BoundIn v ∧ F.FreeIn v

theorem boundIn_iff {F : Formula} {v : Variable} : F.BoundIn v ↔ F.Occurs v ∧ ¬F.FreeIn v :=
  and_congr_right fun _ => not_freeIn_iff.symm

theorem mem_capturedVars_iff {F G : Formula} {v : Variable} :
    v ∈ capturedVars F G ↔ Captured F G v := by
  rw [mem_capturedVars, Captured, boundIn_iff, boundIn_iff]

theorem isEmpty_capturedVars_eq_false {F G : Formula} :
    (capturedVars F G).isEmpty = false ↔ ∃ v, Captured F G v := by
  rw [← Bool.not_eq_true, VariableSet.isEmpty_iff, Classical.not_forall_not]
  exact exists_congr fun v => mem_capturedVars_iff

/-- In a well-formed formula the bound variables are the quantified ones. -/
theorem boundIn_iff_quantifies {F : Formula} {v : Variable} (h : F.isWellFormed = true) :
    F.BoundIn v ↔ F.Quantifies v := by
  rw [boundIn_iff, ((isWellFormed_iff_wellScoped F).mp h).quantifies_iff]

end Formula

/-! ### What is listed -/

/-- What there is to say against a node: a compound captures, a quantifier binds nothing. -/
inductive Issue.Concerns : Issue → Formula → Prop
  | capture (p : Path) (c : Connective) {F G : Formula} (h : ∃ v, Formula.Captured F G v) :
      Concerns (.capture p c (Formula.capturedVars F G)) (.compound c F G)
  | vacuous (p : Path) (q : Quantifier) {v : Variable} {B : Formula} (h : ¬B.FreeIn v) :
      Concerns (.vacuous p v) (.quantification q v B)

namespace Issue

theorem path_under (s : Step) (i : Issue) : (i.under s).path = s :: i.path := by
  cases i <;> rfl

theorem concerns_under {s : Step} {i : Issue} {F : Formula} :
    (i.under s).Concerns F ↔ i.Concerns F := by
  constructor
  · intro h
    cases i <;> cases h
    · exact .capture _ _ ‹_›
    · exact .vacuous _ _ ‹_›
  · intro h
    cases h
    · exact .capture _ _ ‹_›
    · exact .vacuous _ _ ‹_›

/-- An issue below the root is one of a part, one step further. -/
theorem exists_eq_under {i : Issue} {s : Step} {p : Path} (h : i.path = s :: p) :
    ∃ j : Issue, j.path = p ∧ i = j.under s := by
  cases i with
  | capture p' c vs =>
    obtain rfl : p' = s :: p := h
    exact ⟨.capture p c vs, rfl, rfl⟩
  | vacuous p' v =>
    obtain rfl : p' = s :: p := h
    exact ⟨.vacuous p v, rfl, rfl⟩

end Issue

namespace Formula

/-- The issue of the node at the root, if there is one. -/
def ownIssues : Formula → List Issue
  | atom .. => []
  | negation _ => []
  | compound c F G =>
    if (capturedVars F G).isEmpty then [] else [.capture [] c (capturedVars F G)]
  | quantification _ v F => if v ∈ F.freeVars then [] else [.vacuous [] v]

theorem mem_ownIssues {F : Formula} {i : Issue} : i ∈ F.ownIssues ↔ i.path = [] ∧ i.Concerns F := by
  cases F with
  | atom x y => exact ⟨nofun, fun h => nomatch h.2⟩
  | negation F => exact ⟨nofun, fun h => nomatch h.2⟩
  | compound c F G =>
    rw [ownIssues, List.mem_ite_nil_left, List.mem_singleton, Bool.not_eq_true,
      isEmpty_capturedVars_eq_false]
    constructor
    · rintro ⟨captures, rfl⟩
      exact ⟨rfl, .capture [] c captures⟩
    · rintro ⟨root, concerns⟩
      cases concerns with
      | capture p c captures =>
        obtain rfl : p = [] := root
        exact ⟨captures, rfl⟩
  | quantification q v B =>
    rw [ownIssues, List.mem_ite_nil_left, List.mem_singleton, ← freeIn_iff]
    constructor
    · rintro ⟨unused, rfl⟩
      exact ⟨rfl, .vacuous [] q unused⟩
    · rintro ⟨root, concerns⟩
      cases concerns with
      | vacuous p q unused =>
        obtain rfl : p = [] := root
        exact ⟨unused, rfl⟩

theorem ownIssues_eq_nil_or_singleton (F : Formula) :
    F.ownIssues = [] ∨ ∃ i, F.ownIssues = [i] := by
  cases F with
  | atom x y => exact .inl rfl
  | negation F => exact .inl rfl
  | compound c F G =>
    rw [ownIssues]
    split
    · exact .inl rfl
    · exact .inr ⟨_, rfl⟩
  | quantification q v B =>
    rw [ownIssues]
    split
    · exact .inl rfl
    · exact .inr ⟨_, rfl⟩

theorem diagnose_compound (c : Connective) (F G : Formula) :
    (compound c F G).diagnose =
      F.diagnose.map (Issue.under .left) ++ G.diagnose.map (Issue.under .right) ++
        (compound c F G).ownIssues := rfl

theorem diagnose_quantification (q : Quantifier) (v : Variable) (B : Formula) :
    (quantification q v B).diagnose =
      B.diagnose.map (Issue.under .formula) ++ (quantification q v B).ownIssues := rfl

/-- What is listed for a part is listed for the whole where the part stands. -/
theorem mem_map_under_diagnose {F : Formula} {s : Step} {i : Issue}
    (h : ∀ j : Issue, j ∈ F.diagnose ↔ ∃ G, G.StandsAt F j.path ∧ j.Concerns G) :
    i ∈ F.diagnose.map (Issue.under s) ↔
      ∃ G, (∃ p, i.path = s :: p ∧ G.StandsAt F p) ∧ i.Concerns G := by
  rw [List.mem_map]
  constructor
  · rintro ⟨j, listed, rfl⟩
    obtain ⟨G, stands, concerns⟩ := (h j).mp listed
    exact ⟨G, ⟨j.path, j.path_under s, stands⟩, Issue.concerns_under.mpr concerns⟩
  · rintro ⟨G, ⟨p, place, stands⟩, concerns⟩
    obtain ⟨j, rfl, rfl⟩ := Issue.exists_eq_under place
    exact ⟨j, (h j).mpr ⟨G, stands, Issue.concerns_under.mp concerns⟩, rfl⟩

/-- **An issue is listed exactly where it concerns the node that stands there.** -/
theorem mem_diagnose_iff {F : Formula} {i : Issue} :
    i ∈ F.diagnose ↔ ∃ G, G.StandsAt F i.path ∧ i.Concerns G := by
  induction F generalizing i with
  | atom x y =>
    refine ⟨nofun, ?_⟩
    rintro ⟨G, stands, concerns⟩
    obtain ⟨-, rfl⟩ := standsAt_atom.mp stands
    cases concerns
  | negation F ih =>
    rw [diagnose, mem_map_under_diagnose fun j => ih]
    simp only [standsAt_negation, or_and_right, exists_or]
    refine (or_iff_right ?_).symm
    rintro ⟨G, ⟨-, rfl⟩, concerns⟩
    cases concerns
  | compound c F G ihF ihG =>
    rw [diagnose_compound, List.mem_append, List.mem_append, mem_map_under_diagnose fun j => ihF,
      mem_map_under_diagnose fun j => ihG, mem_ownIssues, or_comm]
    simp only [standsAt_compound, or_and_right, exists_or, and_assoc, exists_and_left,
      exists_eq_left]
  | quantification q v B ih =>
    rw [diagnose_quantification, List.mem_append, mem_map_under_diagnose fun j => ih,
      mem_ownIssues, or_comm]
    simp only [standsAt_quantification, or_and_right, exists_or, and_assoc, exists_and_left,
      exists_eq_left]

/-- The variables of an issue are mentioned in the node that it concerns. -/
theorem mentions_of_concerns {i : Issue} {F : Formula} (h : i.Concerns F) {name : String}
    (listed : name ∈ i.vars) : F.Mentions ⟨name⟩ := by
  cases h with
  | capture p c captures =>
    rcases mem_capturedVars.mp (VariableSet.mem_names.mp listed) with ⟨left, -⟩ | ⟨right, -⟩
    · exact mentions_compound.mpr (.inl (.inl left.1))
    · exact mentions_compound.mpr (.inr (.inl right.1))
  | vacuous p q unused =>
    obtain rfl := List.mem_singleton.mp listed
    exact mentions_quantification.mpr (.inl rfl)

/-- **An issue names only what the formula mentions.** -/
theorem mentions_of_mem_diagnose {F : Formula} {i : Issue} (h : i ∈ F.diagnose) {name : String}
    (listed : name ∈ i.vars) : F.Mentions ⟨name⟩ := by
  obtain ⟨G, stands, concerns⟩ := mem_diagnose_iff.mp h
  exact (mentions_of_concerns concerns listed).of_within ⟨i.path, stands⟩

/-! ### The order of the list -/

theorem map_path_map_under (s : Step) (l : List Issue) :
    (l.map (Issue.under s)).map Issue.path = (l.map Issue.path).map (s :: ·) := by
  rw [List.map_map, List.map_map]
  exact List.map_congr_left fun i _ => i.path_under s

theorem pairwise_map_cons {l : List Path} (h : l.Pairwise Path.Before) (s : Step) :
    (l.map (s :: ·)).Pairwise Path.Before :=
  h.map _ fun _ _ before => .step s before

/-- The node itself is listed behind everything below it, and once at most. -/
theorem pairwise_append_ownIssues {l : List Path} (h : l.Pairwise Path.Before)
    (below : ∀ p ∈ l, ∃ s p', p = s :: p') (F : Formula) :
    (l ++ F.ownIssues.map Issue.path).Pairwise Path.Before := by
  have root : ∀ p ∈ F.ownIssues.map Issue.path, p = [] := by
    intro p hp
    obtain ⟨i, own, rfl⟩ := List.mem_map.mp hp
    exact (mem_ownIssues.mp own).1
  refine List.pairwise_append.mpr ⟨h, ?_, ?_⟩
  · rcases F.ownIssues_eq_nil_or_singleton with e | ⟨i, e⟩ <;> rw [e]
    · exact .nil
    · exact List.pairwise_singleton ..
  · intro p hp p' hp'
    obtain ⟨s, rest, rfl⟩ := below p hp
    rw [root p' hp']
    exact .part s rest

/-- **The parts of a node are listed before the node, the left before the right.** -/
theorem pairwise_diagnose (F : Formula) : (F.diagnose.map Issue.path).Pairwise Path.Before := by
  induction F with
  | atom x y => exact .nil
  | negation F ih =>
    rw [diagnose, map_path_map_under]
    exact pairwise_map_cons ih .formula
  | compound c F G ihF ihG =>
    rw [diagnose_compound, List.map_append, List.map_append, map_path_map_under, map_path_map_under]
    refine pairwise_append_ownIssues (List.pairwise_append.mpr
      ⟨pairwise_map_cons ihF .left, pairwise_map_cons ihG .right, ?_⟩) ?_ _
    · intro p hp q hq
      obtain ⟨p, -, rfl⟩ := List.mem_map.mp hp
      obtain ⟨q, -, rfl⟩ := List.mem_map.mp hq
      exact .sides p q
    · intro p hp
      rcases List.mem_append.mp hp with hp | hp
      · obtain ⟨p, -, rfl⟩ := List.mem_map.mp hp
        exact ⟨_, p, rfl⟩
      · obtain ⟨p, -, rfl⟩ := List.mem_map.mp hp
        exact ⟨_, p, rfl⟩
  | quantification q v B ih =>
    rw [diagnose_quantification, List.map_append, map_path_map_under]
    refine pairwise_append_ownIssues (pairwise_map_cons ih .formula) ?_ _
    intro p hp
    obtain ⟨p, -, rfl⟩ := List.mem_map.mp hp
    exact ⟨_, p, rfl⟩

/-- There is something to say against the node itself. -/
def AtFault : Formula → Prop
  | atom .. => False
  | negation _ => False
  | compound _ F G => ∃ v, Captured F G v
  | quantification _ v B => ¬B.FreeIn v

theorem atFault_iff {F : Formula} (p : Path) :
    F.AtFault ↔ ∃ i : Issue, i.path = p ∧ i.Concerns F := by
  constructor
  · intro h
    cases F with
    | atom x y => cases h
    | negation F => cases h
    | compound c F G => exact ⟨_, rfl, .capture p c h⟩
    | quantification q v B => exact ⟨_, rfl, .vacuous p q h⟩
  · rintro ⟨i, -, concerns⟩
    cases concerns with
    | capture p c h => exact h
    | vacuous p q h => exact h

end Formula

/-! ### What is said -/

/-- Names between square brackets, a space between two. -/
def bracketed (names : List String) : String :=
  "[" ++ " ".intercalate names ++ "]"

/-- A finding tells what is wrong with the node at a place.  The names of captured variables are all
of them, in ascending order. -/
inductive Finding.Tells (place : String) : Finding → Formula → Prop
  | capture {c : Connective} {F G : Formula} {names : List String} (some : names ≠ [])
      (exact : ∀ name, name ∈ names ↔ Formula.Captured F G ⟨name⟩)
      (ascending : names.Pairwise (· < ·)) :
      Tells place
        ⟨"VARIABLE_CAPTURE", place,
          s!"Variables {bracketed names} are quantified on one side of the {c.word} and free on the other",
          names⟩
        (.compound c F G)
  | vacuous {q : Quantifier} {v : Variable} {B : Formula} (unused : ¬B.FreeIn v) :
      Tells place
        ⟨"VACUOUS_QUANTIFIER", place,
          s!"Quantified variable {v.name} is not free in its body",
          [v.name]⟩
        (.quantification q v B)

/-- **An issue that concerns a node tells what is wrong with it.** -/
theorem Issue.Concerns.tells {i : Issue} {F : Formula} (h : i.Concerns F) (root : String) :
    Finding.Tells (i.path.render root) (i.finding root) F := by
  cases h with
  | capture p c captures =>
    obtain ⟨v, hv⟩ := captures
    have listed := VariableSet.mem_names.mpr (Formula.mem_capturedVars_iff.mpr hv)
    exact .capture (List.ne_nil_of_mem listed)
      (fun name => VariableSet.mem_names.trans Formula.mem_capturedVars_iff)
      (VariableSet.pairwise_names _)
  | vacuous p q unused => exact .vacuous unused

namespace Formula

/-- **The list of findings is exact.**  There is one for each place where a compound captures a
variable or a quantifier binds nothing, and no other, and each tells what is wrong with the node
that stands there.  They come with the parts of a node before the node and the left before the
right, so no two are about the same place, and no two name the same.  Between well-formed sides the
captured variables are those that are quantified on one side and free on the other. -/
theorem findings_exact (F : Formula) (root : String) :
    (∃ paths : List Path,
      paths.Pairwise Path.Before ∧
      (∀ p, p ∈ paths ↔ ∃ G : Formula, G.StandsAt F p ∧ G.AtFault) ∧
      List.Forall₂
        (fun p f => ∃ G : Formula, G.StandsAt F p ∧ Finding.Tells (Path.render root p) f G)
        paths (F.findings root)) ∧
      (F.findings root).Pairwise (fun f g => f.path ≠ g.path) ∧
      ∀ (c : Connective) (G H : Formula), (compound c G H).Within F →
        G.isWellFormed = true → H.isWellFormed = true →
        ∀ v, Captured G H v ↔ G.Quantifies v ∧ H.FreeIn v ∨ H.Quantifies v ∧ G.FreeIn v := by
  refine ⟨⟨F.diagnose.map Issue.path, F.pairwise_diagnose, fun p => ?_, ?_⟩, ?_, ?_⟩
  · rw [List.mem_map]
    constructor
    · rintro ⟨i, listed, rfl⟩
      obtain ⟨G, stands, concerns⟩ := mem_diagnose_iff.mp listed
      exact ⟨G, stands, (atFault_iff i.path).mpr ⟨i, rfl, concerns⟩⟩
    · rintro ⟨G, stands, fault⟩
      obtain ⟨i, rfl, concerns⟩ := (atFault_iff p).mp fault
      exact ⟨i, mem_diagnose_iff.mpr ⟨G, stands, concerns⟩, rfl⟩
  · rw [findings, List.forall₂_map_left_iff, List.forall₂_map_right_iff, List.forall₂_same]
    intro i listed
    obtain ⟨G, stands, concerns⟩ := mem_diagnose_iff.mp listed
    exact ⟨G, stands, concerns.tells root⟩
  · have places := List.pairwise_map.mp F.pairwise_diagnose
    refine places.map _ fun i j before same => ?_
    exact before.ne (Path.render_injective root same)
  · intro c G H _ hG hH v
    rw [Captured, boundIn_iff_quantifies hG, boundIn_iff_quantifies hH]

/-- The hypotheses are met by a compound inside another, where both capture: the inner one is found
first, and its sides are well-formed. -/
theorem findings_exact_nested :
    ∃ F G H : Formula,
      F = compound .and (quantification .forAll ⟨"a"⟩ (atom (.var ⟨"a"⟩) (.numeral 0)))
        (compound .or G H) ∧
      G = atom (.var ⟨"a"⟩) (.var ⟨"b"⟩) ∧
      H = quantification .thereExists ⟨"b"⟩ (atom (.var ⟨"b"⟩) (.numeral 0)) ∧
      G.isWellFormed = true ∧ H.isWellFormed = true ∧
      (F.findings "formula").map Finding.path = ["formula.right", "formula"] ∧
      (F.findings "formula").Pairwise (fun f g => f.path ≠ g.path) ∧
      ∀ v, Captured G H v ↔ G.Quantifies v ∧ H.FreeIn v ∨ H.Quantifies v ∧ G.FreeIn v := by
  let A := quantification .forAll ⟨"a"⟩ (atom (.var ⟨"a"⟩) (.numeral 0))
  let G := atom (.var ⟨"a"⟩) (.var ⟨"b"⟩)
  let H := quantification .thereExists ⟨"b"⟩ (atom (.var ⟨"b"⟩) (.numeral 0))
  have left : G.isWellFormed = true := rfl
  have right : H.isWellFormed = true := by decide
  have inner : (compound .or G H).Within (compound .and A (compound .or G H)) :=
    within_compound.mpr (.inr (.inr (within_self _)))
  obtain ⟨-, apart, captured⟩ := findings_exact (compound .and A (compound .or G H)) "formula"
  exact ⟨_, G, H, rfl, rfl, rfl, left, right, by decide, apart, captured _ G H inner left right⟩

end Formula
end Typographical
