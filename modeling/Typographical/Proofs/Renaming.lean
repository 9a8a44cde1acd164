/-
# Renaming the variables of a formula

What a formula is asked does not depend on what its variables are called.  A
renaming that keeps apart all the names a formula mentions, in its terms and
behind its quantifiers, carries the variables, the free ones and the captured
ones along, and leaves alone whether the formula is open and whether it is
well-formed.  The diagnosis of the renamed formula is the renamed diagnosis
(`Formula.diagnose_rename`): the names matter only to the order in which an
issue lists its variables.

A union is carried along by any renaming.  A difference or an intersection is not,
if the renaming makes a member of the one operand a member of the other; this is
where the names have to be kept apart (`VariableSet.rename_complement`,
`VariableSet.rename_intersection`).
-/

import Mathlib.Data.Set.Function
import Typographical.Proofs.Diagnosis
import Typographical.Proofs.Findings
import Typographical.Proofs.SetAlgebra

namespace Typographical

variable {r : String → String}

/-- The variable of the new name. -/
def Variable.rename (r : String → String) (v : Variable) : Variable :=
  ⟨r v.name⟩

/-! ### Sets -/

namespace VariableSet

/-- The set of the members' new names. -/
def rename (r : String → String) (s : VariableSet) : VariableSet :=
  ofNames (s.names.map r)

theorem mem_rename {s : VariableSet} {u : Variable} :
    u ∈ s.rename r ↔ ∃ v ∈ s, v.rename r = u := by
  rw [rename, ofNames, mem_ofList, names, List.map_map, List.map_map, List.mem_map]
  exact Iff.rfl

theorem mem_rename_of_mem {s : VariableSet} {v : Variable} (h : v ∈ s) :
    v.rename r ∈ s.rename r :=
  mem_rename.mpr ⟨v, h, rfl⟩

/-- Where the names of two sets are kept apart, a member of the first is in the second just if its
new name is. -/
theorem rename_mem_rename {s t : VariableSet}
    (h : Set.InjOn (Variable.rename r) {v | v ∈ s ∨ v ∈ t}) {v : Variable} (hv : v ∈ s) :
    v.rename r ∈ t.rename r ↔ v ∈ t := by
  constructor
  · intro taken
    obtain ⟨u, member, same⟩ := mem_rename.mp taken
    rwa [← h (.inr member) (.inl hv) same]
  · exact mem_rename_of_mem

theorem rename_singleton (v : Variable) : (singleton v).rename r = singleton (v.rename r) := rfl

/-- **A union is carried along.** -/
theorem rename_union (s t : VariableSet) :
    (s.union t).rename r = (s.rename r).union (t.rename r) := by
  refine ext fun u => ?_
  simp only [mem_union, mem_rename, or_and_right, exists_or]

/-- **A difference is carried along** where the names of both sets are kept apart. -/
theorem rename_complement {s t : VariableSet}
    (h : Set.InjOn (Variable.rename r) {v | v ∈ s ∨ v ∈ t}) :
    (s.complement t).rename r = (s.rename r).complement (t.rename r) := by
  refine ext fun u => ?_
  rw [mem_complement, mem_rename, mem_rename]
  constructor
  · rintro ⟨v, member, rfl⟩
    obtain ⟨inFirst, notInSecond⟩ := mem_complement.mp member
    exact ⟨⟨v, inFirst, rfl⟩, (rename_mem_rename h inFirst).not.mpr notInSecond⟩
  · rintro ⟨⟨v, inFirst, rfl⟩, notTaken⟩
    have notInSecond := (rename_mem_rename h inFirst).not.mp notTaken
    exact ⟨v, mem_complement.mpr ⟨inFirst, notInSecond⟩, rfl⟩

/-- **An intersection is carried along** where the names of both sets are kept apart. -/
theorem rename_intersection {s t : VariableSet}
    (h : Set.InjOn (Variable.rename r) {v | v ∈ s ∨ v ∈ t}) :
    (s.intersection t).rename r = (s.rename r).intersection (t.rename r) := by
  refine ext fun u => ?_
  rw [mem_intersection, mem_rename, mem_rename]
  constructor
  · rintro ⟨v, member, rfl⟩
    obtain ⟨inFirst, inSecond⟩ := mem_intersection.mp member
    exact ⟨⟨v, inFirst, rfl⟩, mem_rename_of_mem inSecond⟩
  · rintro ⟨⟨v, inFirst, rfl⟩, taken⟩
    have inSecond := (rename_mem_rename h inFirst).mp taken
    exact ⟨v, mem_intersection.mpr ⟨inFirst, inSecond⟩, rfl⟩

theorem isEmpty_rename (s : VariableSet) : (s.rename r).isEmpty = s.isEmpty := by
  rw [Bool.eq_iff_iff, isEmpty_iff, isEmpty_iff]
  constructor
  · exact fun h v member => h _ (mem_rename_of_mem member)
  · intro h u renamed
    obtain ⟨v, member, -⟩ := mem_rename.mp renamed
    exact h v member

theorem nodup_names (s : VariableSet) : s.names.Nodup := by
  refine List.Pairwise.imp ?_ s.pairwise_names
  rintro name _ before rfl
  exact String.lt_irrefl name before

/-- **The new names are listed in their own order,** each as often as the old. -/
theorem names_rename_perm {s : VariableSet} (h : Set.InjOn (Variable.rename r) {v | v ∈ s}) :
    (s.rename r).names.Perm (s.names.map r) := by
  have apart : (s.names.map r).Nodup := by
    refine List.Nodup.map_on ?_ s.nodup_names
    intro x hx y hy same
    have whole := h (mem_names.mp hx) (mem_names.mp hy) (congrArg Variable.mk same)
    exact congrArg Variable.name whole
  refine (List.perm_ext_iff_of_nodup (nodup_names _) apart).mpr fun name => ?_
  rw [mem_names, rename, ofNames, mem_ofList, List.mem_map_of_injective fun _ _ => Variable.mk.inj]

end VariableSet

/-! ### Formulas -/

/-- The term with every variable renamed. -/
def Term.rename (r : String → String) : Term → Term
  | numeral n => numeral n
  | var v => var (v.rename r)
  | successor q t => successor q (t.rename r)
  | compound op x y => compound op (x.rename r) (y.rename r)

theorem Term.vars_rename (t : Term) : (t.rename r).vars = t.vars.rename r := by
  induction t with
  | numeral n => rfl
  | var v => rfl
  | successor q t ih => exact ih
  | compound op x y ihx ihy => rw [rename, vars, vars, ihx, ihy, VariableSet.rename_union]

/-- The issue at the same place, with its variables renamed. -/
def Issue.rename (r : String → String) : Issue → Issue
  | capture p c vs => capture p c (vs.rename r)
  | vacuous p v => vacuous p (v.rename r)

theorem Issue.code_rename (i : Issue) : (i.rename r).code = i.code := by
  cases i <;> rfl

theorem Issue.path_rename (i : Issue) : (i.rename r).path = i.path := by
  cases i <;> rfl

theorem Issue.vars_rename_perm {i : Issue}
    (h : Set.InjOn (Variable.rename r) {v | v.name ∈ i.vars}) :
    (i.rename r).vars.Perm (i.vars.map r) := by
  cases i with
  | capture p c vs =>
    refine VariableSet.names_rename_perm (h.mono fun v member => ?_)
    exact VariableSet.mem_names.mpr member
  | vacuous p v => exact .refl _

theorem Issue.pairwise_vars (i : Issue) : i.vars.Pairwise (· < ·) := by
  cases i with
  | capture p c vs => exact vs.pairwise_names
  | vacuous p v => exact List.pairwise_singleton ..

theorem Issue.rename_under (s : Step) (i : Issue) :
    (i.under s).rename r = (i.rename r).under s := by
  cases i <;> rfl

theorem Issue.map_rename_under (s : Step) (l : List Issue) :
    (l.map (Issue.under s)).map (Issue.rename r) =
      (l.map (Issue.rename r)).map (Issue.under s) := by
  rw [List.map_map, List.map_map]
  exact List.map_congr_left fun i _ => i.rename_under s

namespace Formula

/-- The formula with every variable renamed, in its terms and behind its quantifiers. -/
def rename (r : String → String) : Formula → Formula
  | atom x y => atom (x.rename r) (y.rename r)
  | negation F => negation (F.rename r)
  | compound c F G => compound c (F.rename r) (G.rename r)
  | quantification q v F => quantification q (v.rename r) (F.rename r)

/-- The renaming keeps apart the names that the formula mentions. -/
def KeptApart (r : String → String) (F : Formula) : Prop :=
  Set.InjOn (Variable.rename r) {v | F.Mentions v}

namespace KeptApart

variable {F G B : Formula}

theorem of_names (h : Set.InjOn r {name | F.Mentions ⟨name⟩}) : F.KeptApart r := by
  intro u hu v hv same
  have names : u.name = v.name := h hu hv (congrArg Variable.name same)
  exact congrArg Variable.mk names

theorem of_negation (h : (negation F).KeptApart r) : F.KeptApart r :=
  h.mono fun _ => mentions_negation.mpr

theorem left {c : Connective} (h : (compound c F G).KeptApart r) : F.KeptApart r :=
  h.mono fun _ mentions => mentions_compound.mpr (.inl mentions)

theorem right {c : Connective} (h : (compound c F G).KeptApart r) : G.KeptApart r :=
  h.mono fun _ mentions => mentions_compound.mpr (.inr mentions)

theorem body {q : Quantifier} {w : Variable} (h : (quantification q w B).KeptApart r) :
    B.KeptApart r :=
  h.mono fun _ mentions => mentions_quantification.mpr (.inr mentions)

theorem atQuantifier {q : Quantifier} {w : Variable} (h : (quantification q w B).KeptApart r) :
    Set.InjOn (Variable.rename r) {v | v ∈ VariableSet.singleton w ∨ v ∈ B.freeVars} :=
  h.mono fun _ hv => mentions_quantification.mpr
    (hv.imp VariableSet.mem_singleton.mp mentions_of_mem_freeVars)

end KeptApart

/-! ### What is asked of a formula -/

theorem vars_rename (F : Formula) : (F.rename r).vars = F.vars.rename r := by
  induction F with
  | atom x y =>
    rw [rename, vars, vars, x.vars_rename, y.vars_rename, VariableSet.rename_union]
  | negation F ih => exact ih
  | compound c F G ihF ihG => rw [rename, vars, vars, ihF, ihG, VariableSet.rename_union]
  | quantification q v B ih => exact ih

theorem freeVars_rename {F : Formula} (h : F.KeptApart r) :
    (F.rename r).freeVars = F.freeVars.rename r := by
  induction F with
  | atom x y => exact vars_rename (atom x y)
  | negation F ih => exact ih h.of_negation
  | compound c F G ihF ihG =>
    rw [rename, freeVars, freeVars, ihF h.left, ihG h.right, VariableSet.rename_union]
  | quantification q v B ih =>
    have apart : Set.InjOn (Variable.rename r)
        {u | u ∈ B.freeVars ∨ u ∈ VariableSet.singleton v} :=
      h.atQuantifier.mono fun _ => Or.symm
    rw [rename, freeVars, freeVars, ih h.body, VariableSet.rename_complement apart,
      VariableSet.rename_singleton]

/-- What one side binds and the other has free is carried along: all the sets that it is made of are
of variables that one side or the other mentions. -/
theorem bound_and_free_rename {F G : Formula}
    (h : Set.InjOn (Variable.rename r) {v | F.Mentions v ∨ G.Mentions v}) :
    ((F.vars.complement F.freeVars).intersection G.freeVars).rename r =
      ((F.vars.rename r).complement (F.freeVars.rename r)).intersection (G.freeVars.rename r) := by
  have sides : Set.InjOn (Variable.rename r)
      {v | v ∈ F.vars.complement F.freeVars ∨ v ∈ G.freeVars} := by
    refine h.mono fun v hv => ?_
    rcases hv with bound | free
    · exact .inl (mentions_of_mem_vars (VariableSet.mem_complement.mp bound).1)
    · exact .inr (mentions_of_mem_freeVars free)
  have oneSide : Set.InjOn (Variable.rename r) {v | v ∈ F.vars ∨ v ∈ F.freeVars} :=
    h.mono fun v hv => .inl (hv.elim mentions_of_mem_vars mentions_of_mem_freeVars)
  rw [VariableSet.rename_intersection sides, VariableSet.rename_complement oneSide]

/-- **The captured variables are carried along.** -/
theorem capturedVars_rename {c : Connective} {F G : Formula} (h : (compound c F G).KeptApart r) :
    capturedVars (F.rename r) (G.rename r) = (capturedVars F G).rename r := by
  have apart : Set.InjOn (Variable.rename r) {v | F.Mentions v ∨ G.Mentions v} :=
    h.mono fun _ => mentions_compound.mpr
  have swapped : Set.InjOn (Variable.rename r) {v | G.Mentions v ∨ F.Mentions v} :=
    apart.mono fun _ => Or.symm
  simp only [capturedVars, vars_rename, freeVars_rename h.left, freeVars_rename h.right,
    VariableSet.rename_union, bound_and_free_rename apart, bound_and_free_rename swapped]

theorem isOpen_rename {F : Formula} (h : F.KeptApart r) : (F.rename r).isOpen = F.isOpen := by
  induction F with
  | atom x y =>
    have same := congrArg VariableSet.isEmpty (vars_rename (r := r) (atom x y))
    rw [VariableSet.isEmpty_rename] at same
    exact congrArg not same
  | negation F ih => exact ih h.of_negation
  | compound c F G ihF ihG => rw [rename, isOpen, isOpen, ihF h.left, ihG h.right]
  | quantification q v B ih =>
    have same := congrArg VariableSet.isEmpty (freeVars_rename h)
    rwa [VariableSet.isEmpty_rename] at same

theorem ownIssues_rename {F : Formula} (h : F.KeptApart r) :
    (F.rename r).ownIssues = F.ownIssues.map (Issue.rename r) := by
  cases F with
  | atom x y => rfl
  | negation F => rfl
  | compound c F G =>
    rw [rename, ownIssues, ownIssues, capturedVars_rename h, VariableSet.isEmpty_rename]
    split <;> rfl
  | quantification q v B =>
    rw [rename, ownIssues, ownIssues, freeVars_rename h.body]
    simp only [VariableSet.rename_mem_rename h.atQuantifier (VariableSet.mem_singleton.mpr rfl)]
    split <;> rfl

/-- **The diagnosis of the renamed formula is the renamed diagnosis.** -/
theorem diagnose_rename {F : Formula} (h : F.KeptApart r) :
    (F.rename r).diagnose = F.diagnose.map (Issue.rename r) := by
  induction F with
  | atom x y => rfl
  | negation F ih =>
    rw [rename, diagnose, diagnose, ih h.of_negation, Issue.map_rename_under]
  | compound c F G ihF ihG =>
    have own := ownIssues_rename h
    rw [rename] at own
    rw [rename, diagnose_compound, diagnose_compound, own, ihF h.left, ihG h.right,
      List.map_append, List.map_append, Issue.map_rename_under, Issue.map_rename_under]
  | quantification q v B ih =>
    have own := ownIssues_rename h
    rw [rename] at own
    rw [rename, diagnose_quantification, diagnose_quantification, own, ih h.body, List.map_append,
      Issue.map_rename_under]

/-! ### What is said -/

/-- **What is said of a formula does not depend on what its variables are called.**  Let a renaming
keep apart the names that the formula mentions, in its terms or behind its quantifiers; one that is
injective does.  Then the variables of the renamed formula and the free ones among them are the
renamed ones, it is open and well-formed just if the formula was, and there are as many findings
about it, of the same kinds at the same places in the same order.  The variables of each are those
of the old one renamed, in ascending order again. -/
theorem rename_equivariant {F : Formula} (h : Set.InjOn r {name | F.Mentions ⟨name⟩})
    (root : String) :
    (F.rename r).vars = F.vars.rename r ∧
    (F.rename r).freeVars = F.freeVars.rename r ∧
    (F.rename r).isOpen = F.isOpen ∧
    (F.rename r).isWellFormed = F.isWellFormed ∧
    List.Forall₂
      (fun f g => g.code = f.code ∧ g.path = f.path ∧ g.vars.Pairwise (· < ·) ∧
        g.vars.Perm (f.vars.map r))
      (F.findings root) ((F.rename r).findings root) := by
  have apart := KeptApart.of_names h
  refine ⟨F.vars_rename, freeVars_rename apart, isOpen_rename apart, ?_, ?_⟩
  · rw [Bool.eq_iff_iff, ← diagnose_eq_nil_iff, ← diagnose_eq_nil_iff, diagnose_rename apart,
      List.map_eq_nil_iff]
  · rw [findings, findings, diagnose_rename apart, List.forall₂_map_left_iff,
      List.forall₂_map_right_iff, List.forall₂_map_right_iff, List.forall₂_same]
    intro i listed
    refine ⟨i.code_rename, congrArg (Path.render root) i.path_rename,
      (i.rename r).pairwise_vars, ?_⟩
    exact Issue.vars_rename_perm (apart.mono fun v => mentions_of_mem_diagnose listed)

/-- The hypothesis is met by two captured variables that change names.  The finding about the new
formula lists the two in ascending order again, so it is the same. -/
theorem rename_equivariant_swapped :
    ∃ (r : String → String) (F B : Formula) (f : Finding),
      r = Equiv.swap "a" "b" ∧
      B = atom (.var ⟨"a"⟩) (.var ⟨"b"⟩) ∧
      F = compound .and B (quantification .forAll ⟨"a"⟩ (quantification .forAll ⟨"b"⟩ B)) ∧
      Set.InjOn r {name | F.Mentions ⟨name⟩} ∧
      (F.rename r).freeVars = F.freeVars.rename r ∧
      (F.rename r).isWellFormed = F.isWellFormed ∧
      F.rename r ≠ F ∧
      F.findings "formula" = [f] ∧ (F.rename r).findings "formula" = [f] ∧
      f.vars = ["a", "b"] ∧ f.vars.map r = ["b", "a"] ∧ f.vars.Perm (f.vars.map r) := by
  let r : String → String := Equiv.swap "a" "b"
  let B := atom (.var ⟨"a"⟩) (.var ⟨"b"⟩)
  let F := compound .and B (quantification .forAll ⟨"a"⟩ (quantification .forAll ⟨"b"⟩ B))
  let f := (Issue.capture [] .and (.ofNames ["a", "b"])).finding "formula"
  have apart : Set.InjOn r {name | F.Mentions ⟨name⟩} := (Equiv.injective _).injOn
  have before : F.findings "formula" = [f] := by decide
  have after : (F.rename r).findings "formula" = [f] := by decide
  obtain ⟨-, free, -, wellFormed, found⟩ := rename_equivariant apart "formula"
  rw [before, after] at found
  obtain ⟨-, -, -, reordered⟩ := (List.forall₂_cons.mp found).1
  exact ⟨r, F, B, f, rfl, rfl, rfl, apart, free, wellFormed, by decide, before, after, by decide,
    by decide, reordered⟩

/-- Where two names become one, a formula that was well-formed need not stay it. -/
example :
    let F := compound .and (atom (.var ⟨"a"⟩) (.numeral 0))
      (quantification .forAll ⟨"b"⟩ (atom (.var ⟨"b"⟩) (.numeral 0)))
    F.isWellFormed = true ∧ (F.rename fun _ => "a").isWellFormed = false := by decide

end Formula

end Typographical
