/-
# Folding successors

Successors are folded while a tree is built: over a numeral they are added to its value,
and over any other term they make one node.  Neither changes what a term stands for
(`Term.value_ofFoldedSuccessor`), and a call that would break the rule for a node does
not succeed, so the trees that calls can build are those in which every node keeps the
rule (`Node.buildable_iff`).

A reading folds a run of letters as a whole.  `DerivesUnfolded` derives a term from the
same tokens with a node for every letter, and its value is that of the term that is read
(`DerivesTerm.value_eq_of_unfolded`).
-/

import Mathlib.Logic.Function.Iterate
import Typographical.Formula.Draft
import Typographical.Formula.Path
import Typographical.Proofs.Meaning
import Typographical.Proofs.Part

namespace Typographical

/-! ### The value of what a call builds -/

namespace Term

variable {q value : Int} {s t : Term}

theorem value_ofValue (h : ofValue value = .ok t) (σ : Assignment) : (t.value σ : Int) = value := by
  unfold ofValue at h
  split at h
  · cases h
  · next nonnegative =>
    cases h
    exact Int.toNat_of_nonneg (Int.not_lt.mp nonnegative)

theorem value_ofSuccessor (h : ofSuccessor q s = .ok t) (σ : Assignment) :
    (t.value σ : Int) = q + s.value σ := by
  unfold ofSuccessor at h
  split at h
  · cases h
  · split at h
    · cases h
    · next positive _ =>
      cases h
      show ((s.value σ + q.toNat : Nat) : Int) = q + s.value σ
      omega

/-- **Successors add their number to the value,** folded or not. -/
theorem value_ofFoldedSuccessor (h : ofFoldedSuccessor q s = .ok t) (σ : Assignment) :
    (t.value σ : Int) = q + s.value σ := by
  cases s with
  | numeral n =>
    have sum := value_ofValue h σ
    show (t.value σ : Int) = q + n
    omega
  | var v => exact value_ofSuccessor h σ
  | successor p s => exact value_ofSuccessor h σ
  | compound op x y => exact value_ofSuccessor h σ

theorem value_addSuccessors (p : Nat) (t : Term) (σ : Assignment) :
    (t.addSuccessors p).value σ = t.value σ + p := by
  cases t <;> rfl

/-- As many single successors add as much. -/
theorem value_iterate_successor (p : Nat) (t : Term) (σ : Assignment) :
    ((successor 1)^[p] t).value σ = t.value σ + p := by
  induction p generalizing t with
  | zero => rfl
  | succ p ih =>
    rw [Function.iterate_succ_apply, ih]
    show t.value σ + 1 + p = t.value σ + (p + 1)
    omega

end Term

/-! ### The trees that calls can build -/

namespace Node

/-- The nodes of a tree, each with its place. -/
def parts : Node → List (Path × Node)
  | term t => t.parts
  | formula F => F.parts

/-- The rule for a node: a successor is applied at least once, and to no numeral. -/
def Sound : Node → Prop
  | term (.successor q t) => 1 ≤ q ∧ t.isNumeral = false
  | _ => True

/-- The trees that calls can build, each from trees that were built before.  A numeral or a number
of successors may be asked for with any integer; the call has to succeed. -/
inductive Buildable : Node → Prop
  | numeral {value : Int} {t : Term} (h : Term.ofValue value = .ok t) : Buildable (term t)
  | var (v : Variable) : Buildable (term (.var v))
  | successor {q : Int} {s t : Term} (hs : Buildable (term s)) (h : Term.ofSuccessor q s = .ok t) :
      Buildable (term t)
  | foldedSuccessor {q : Int} {s t : Term} (hs : Buildable (term s))
      (h : Term.ofFoldedSuccessor q s = .ok t) : Buildable (term t)
  | compoundTerm (op : Operation) {x y : Term} (hx : Buildable (term x)) (hy : Buildable (term y)) :
      Buildable (term (.compound op x y))
  | atom {x y : Term} (hx : Buildable (term x)) (hy : Buildable (term y)) :
      Buildable (formula (.atom x y))
  | negation {F : Formula} (hF : Buildable (formula F)) : Buildable (formula (.negation F))
  | compound (c : Connective) {F G : Formula} (hF : Buildable (formula F))
      (hG : Buildable (formula G)) : Buildable (formula (.compound c F G))
  | quantification (q : Quantifier) (v : Variable) {F : Formula} (hF : Buildable (formula F)) :
      Buildable (formula (.quantification q v F))

/-- Every node of a tree keeps its rule. -/
def AllSound (root : Node) : Prop :=
  ∀ entry ∈ root.parts, entry.2.Sound

theorem allSound_numeral (n : Nat) : (term (.numeral n)).AllSound :=
  List.forall_mem_singleton.mpr trivial

theorem allSound_var (v : Variable) : (term (.var v)).AllSound :=
  List.forall_mem_singleton.mpr trivial

/-- Nodes that are listed one step further from the root are the same nodes. -/
theorem forall_mem_map_under {step : Step} {entries : List (Path × Node)} :
    (∀ entry ∈ entries.map (under step), entry.2.Sound) ↔ ∀ entry ∈ entries, entry.2.Sound :=
  List.forall_mem_map

theorem allSound_successor {q : Nat} {t : Term} :
    (term (.successor q t)).AllSound ↔ (1 ≤ q ∧ t.isNumeral = false) ∧ (term t).AllSound :=
  List.forall_mem_cons.trans (and_congr_right' forall_mem_map_under)

/-- A tree of two parts is sound when its root and both parts are. -/
theorem forall_mem_cons_append {root : Path × Node} {left right : List (Path × Node)}
    (h : root.2.Sound) :
    (∀ entry ∈ root :: (left.map (under .left) ++ right.map (under .right)), entry.2.Sound) ↔
      (∀ entry ∈ left, entry.2.Sound) ∧ ∀ entry ∈ right, entry.2.Sound := by
  rw [List.forall_mem_cons, and_iff_right h, List.forall_mem_append, forall_mem_map_under,
    forall_mem_map_under]

theorem allSound_compoundTerm {op : Operation} {x y : Term} :
    (term (.compound op x y)).AllSound ↔ (term x).AllSound ∧ (term y).AllSound :=
  forall_mem_cons_append trivial

theorem allSound_atom {x y : Term} :
    (formula (.atom x y)).AllSound ↔ (term x).AllSound ∧ (term y).AllSound :=
  forall_mem_cons_append trivial

theorem allSound_negation {F : Formula} :
    (formula (.negation F)).AllSound ↔ (formula F).AllSound :=
  List.forall_mem_cons.trans ((and_iff_right trivial).trans forall_mem_map_under)

theorem allSound_compound {c : Connective} {F G : Formula} :
    (formula (.compound c F G)).AllSound ↔ (formula F).AllSound ∧ (formula G).AllSound :=
  forall_mem_cons_append trivial

theorem allSound_quantification {q : Quantifier} {v : Variable} {F : Formula} :
    (formula (.quantification q v F)).AllSound ↔ (formula F).AllSound :=
  List.forall_mem_cons.trans ((and_iff_right trivial).trans forall_mem_map_under)

/-- **A term is sound at every node when it is folded.** -/
theorem allSound_term {t : Term} : (term t).AllSound ↔ t.Folded := by
  induction t with
  | numeral n => exact iff_of_true (allSound_numeral n) trivial
  | var v => exact iff_of_true (allSound_var v) trivial
  | successor q t ih => rw [allSound_successor, ih, and_assoc, Term.Folded]
  | compound op x y ihx ihy => rw [allSound_compoundTerm, ihx, ihy, Term.Folded]

/-- **What calls build keeps the rule at every node.** -/
theorem Buildable.allSound {root : Node} (h : root.Buildable) : root.AllSound := by
  induction h with
  | numeral h => exact allSound_term.mpr (Term.folded_of_ofValue h)
  | var v => exact allSound_var v
  | successor hs h ih =>
    exact allSound_term.mpr (Term.folded_of_ofSuccessor (allSound_term.mp ih) h)
  | foldedSuccessor hs h ih =>
    exact allSound_term.mpr (Term.folded_of_ofFoldedSuccessor (allSound_term.mp ih) h)
  | compoundTerm op hx hy ihx ihy => exact allSound_compoundTerm.mpr ⟨ihx, ihy⟩
  | atom hx hy ihx ihy => exact allSound_atom.mpr ⟨ihx, ihy⟩
  | negation hF ih => exact allSound_negation.mpr ih
  | compound c hF hG ihF ihG => exact allSound_compound.mpr ⟨ihF, ihG⟩
  | quantification q v hF ih => exact allSound_quantification.mpr ih

theorem buildable_term {t : Term} (h : (term t).AllSound) : (term t).Buildable := by
  induction t with
  | numeral n =>
    have value : Term.ofValue n = .ok (.numeral n) := if_neg (Int.not_lt.mpr (Int.natCast_nonneg n))
    exact .numeral value
  | var v => exact .var v
  | successor q t ih =>
    obtain ⟨⟨positive, noNumeral⟩, below⟩ := allSound_successor.mp h
    have call : Term.ofSuccessor q t = .ok (.successor q t) :=
      Term.ofSuccessor_of_one_le (by omega) noNumeral
    exact .successor (ih below) call
  | compound op x y ihx ihy =>
    obtain ⟨left, right⟩ := allSound_compoundTerm.mp h
    exact .compoundTerm op (ihx left) (ihy right)

/-- **The trees that calls can build are those that keep the rule at every node.** -/
theorem buildable_iff {root : Node} : root.Buildable ↔ root.AllSound := by
  refine ⟨Buildable.allSound, fun h => ?_⟩
  cases root with
  | term t => exact buildable_term h
  | formula F =>
    induction F with
    | atom x y =>
      obtain ⟨left, right⟩ := allSound_atom.mp h
      exact .atom (buildable_term left) (buildable_term right)
    | negation F ih => exact .negation (ih (allSound_negation.mp h))
    | compound c F G ihF ihG =>
      obtain ⟨left, right⟩ := allSound_compound.mp h
      exact .compound c (ihF left) (ihG right)
    | quantification q v F ih => exact .quantification q v (ih (allSound_quantification.mp h))

end Node

/-! ### A node for every letter -/

/-- The tokens derive the term with nothing folded: every letter of a run is a successor of its
own. -/
inductive DerivesUnfolded : List Token → Term → Prop
  | zero (s : String) : DerivesUnfolded [⟨.zero, s⟩] (.numeral 0)
  | var (name : String) : DerivesUnfolded [⟨.variableName, name⟩] (.var ⟨name⟩)
  | run {ts : List Token} {t : Term} (run : String) (h : DerivesUnfolded ts t) :
      DerivesUnfolded (⟨.successor, run⟩ :: ts) ((Term.successor 1)^[run.length] t)
  | compound {xs ys : List Token} {x y : Term} (op : Operation) (a s b : String)
      (hx : DerivesUnfolded xs x) (hy : DerivesUnfolded ys y) :
      DerivesUnfolded (⟨.openParen, a⟩ :: (xs ++ ⟨op.sign, s⟩ :: (ys ++ [⟨.closeParen, b⟩])))
        (.compound op x y)

section

variable {ts : List Token} {t u : Term} {l m : Nat}

theorem DerivesTerm.exists_unfolded (h : DerivesTerm ts t l) : ∃ u, DerivesUnfolded ts u := by
  induction h with
  | zero s => exact ⟨_, .zero s⟩
  | var name => exact ⟨_, .var name⟩
  | numeral run h ih =>
    obtain ⟨u, hu⟩ := ih
    exact ⟨_, .run run hu⟩
  | successor run ht h ih =>
    obtain ⟨u, hu⟩ := ih
    exact ⟨_, .run run hu⟩
  | compound op a s b hx hy ihx ihy =>
    obtain ⟨x, hx⟩ := ihx
    obtain ⟨y, hy⟩ := ihy
    exact ⟨_, .compound op a s b hx hy⟩

/-- What derives a term with nothing folded derives one of the same value. -/
theorem DerivesUnfolded.exists_derives (h : DerivesUnfolded ts u) :
    ∃ t l, DerivesTerm ts t l ∧ ∀ σ, t.value σ = u.value σ := by
  induction h with
  | zero s => exact ⟨_, _, .zero s, fun σ => rfl⟩
  | var name => exact ⟨_, _, .var name, fun σ => rfl⟩
  | run run h ih =>
    obtain ⟨t, l, ht, value⟩ := ih
    refine ⟨_, _, ht.addSuccessors run, fun σ => ?_⟩
    rw [Term.value_addSuccessors, Term.value_iterate_successor, value]
  | compound op a s b hx hy ihx ihy =>
    obtain ⟨x, l, hx, valueX⟩ := ihx
    obtain ⟨y, m, hy, valueY⟩ := ihy
    refine ⟨_, _, .compound op a s b hx hy, fun σ => ?_⟩
    rw [Term.value, Term.value, valueX, valueY]

/-- Tokens derive one term only: a run over them has one end. -/
theorem DerivesTerm.unique (h : DerivesTerm ts t l) (h' : DerivesTerm ts u m) : t = u := by
  have run := (h.leads (.outermost 1)).1
  rw [(h'.leads (.outermost 1)).1] at run
  cases run
  rfl

/-- **A term has the value of its unfolded derivation.** -/
theorem DerivesTerm.value_eq_of_unfolded (h : DerivesTerm ts t l) (hu : DerivesUnfolded ts u)
    (σ : Assignment) : t.value σ = u.value σ := by
  obtain ⟨t', l', derived, value⟩ := hu.exists_derives
  rw [h.unique derived, value]

/-- **Tokens that derive a term are read as that term,** if the bound has room for the level of the
derivation above the levels that are open. -/
theorem Parser.term_of_derives {p : Parser} {last : Scanner} (h : DerivesTerm ts t l)
    (tokens : p.scanner.Reads ts last) (within : p.depth + l ≤ p.bound) :
    ∃ later, p.term = (.ok t, later) ∧ later.scanner = last := by
  have derives : Part.term.Derives ts t l := h
  obtain ⟨run, peak⟩ := derives.leads
  have low : p.depth - 0 + (Progress.due Part.term.due).peak ts ≤ p.deepestAllowed := by
    rw [peak, deepestAllowed]
    omega
  obtain ⟨later, read, place, -⟩ :=
    read_of_run Part.term.hasLevel_due (Nat.zero_le _) tokens run low
  exact ⟨later, read, place⟩

/-- Reading stops at none of the tokens that derive a term. -/
theorem DerivesTerm.isStop_eq_false (h : DerivesTerm ts t l) :
    ∀ t ∈ ts, t.kind.isStop = false :=
  Progress.isStop_of_run (h.leads (.outermost 1)).1

/-- A text whose tokens derive a term is read as that term. -/
theorem Parser.term_ofString {source : String} {bound : Int} (h : DerivesTerm (tokenize source) t l)
    (within : l ≤ bound) : (ofString source bound).term.1 = .ok t := by
  have room : ((ofString source bound).depth : Int) + l ≤ bound := by
    show ((0 : Nat) : Int) + l ≤ bound
    omega
  obtain ⟨last, tokens, -⟩ := Scanner.exists_reads_of_drain_fst
    (s := (ofString source bound).scanner) (List.append_nil _).symm h.isStop_eq_false
  obtain ⟨later, read, -⟩ := term_of_derives h tokens room
  rw [read]

end

end Typographical
