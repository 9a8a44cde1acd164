/-
# What a tree keeps of its tokens

A token leaves a mark: its kind, with the name for a variable and the length for
a run of successors.  Which spelling was used is gone.  In the normal form of a
list of tokens, runs that stand one behind the other in front of a zero are
joined into one, since they make one numeral; all other runs stay apart.
`Mark.joinRuns_runs_zero` and `Mark.joinRuns_runs` are the rule for whole blocks
of runs.

Every tree has marks of its own.  Tokens that derive the tree have them as their
normal form (`DerivesFormula.normalForm_eq`), and written out as tokens they
derive the tree, as low as can be (`Formula.Canonical.derives_marks`).  So a
canonical tree and its marks determine each other
(`Formula.Canonical.eq_of_marks_eq`).
-/

import Mathlib.Algebra.GroupWithZero.Nat
import Typographical.Proofs.Canonical
import Typographical.Proofs.Verdict

namespace Typographical

/-- What is kept of a token. -/
inductive Mark
  | sign (kind : TokenKind)
  | name (text : String)
  | run (length : Nat)
deriving DecidableEq, Repr

/-- The mark of a token: its kind, with the text of a name and the length of a run. -/
def Token.mark (t : Token) : Mark :=
  match t.kind with
  | .variableName => .name t.text
  | .successor => .run t.text.length
  | kind => .sign kind

@[simp] theorem Token.mark_name (s : String) : Token.mark ⟨.variableName, s⟩ = .name s := rfl

@[simp] theorem Token.mark_of_ne {k : TokenKind} (hv : k ≠ .variableName) (hS : k ≠ .successor)
    (s : String) : Token.mark ⟨k, s⟩ = .sign k := by
  cases k <;> first | rfl | contradiction

namespace Mark

/-- A run in front of marks whose runs are joined already: it joins a run that stands in front of a
zero. -/
def joinRun (q : Nat) : List Mark → List Mark
  | run n :: sign .zero :: ms => run (q + n) :: sign .zero :: ms
  | ms => run q :: ms

/-- Joins the runs that stand one behind the other in front of a zero. -/
def joinRuns : List Mark → List Mark
  | [] => []
  | run q :: ms => joinRun q (joinRuns ms)
  | sign k :: ms => sign k :: joinRuns ms
  | name s :: ms => name s :: joinRuns ms

/-- **A block of runs in front of a zero becomes one run, as long as all of them.** -/
theorem joinRuns_runs_zero (q : Nat) (qs : List Nat) (ms : List Mark) :
    joinRuns ((q :: qs).map run ++ sign .zero :: ms) =
      run (q :: qs).sum :: sign .zero :: joinRuns ms := by
  induction qs generalizing q with
  | nil => rfl
  | cons p qs ih =>
    have block := ih p
    rw [List.map_cons, List.cons_append, joinRuns, block]
    rfl

theorem joinRun_of_ne {q : Nat} {ms : List Mark}
    (h : ∀ n rest, ms ≠ run n :: sign .zero :: rest) : joinRun q ms = run q :: ms := by
  unfold joinRun
  split
  · next n rest => exact absurd rfl (h n rest)
  · rfl

/-- **Any other block of runs stays as it is,** at the end as well as in front of another mark. -/
theorem joinRuns_runs (qs : List Nat) {ms : List Mark}
    (h : ∀ m ∈ ms.head?, m ≠ sign .zero ∧ ∀ q, m ≠ run q) :
    joinRuns (qs.map run ++ ms) = qs.map run ++ joinRuns ms := by
  have first : ∀ m ∈ (joinRuns ms).head?, m ≠ sign .zero ∧ ∀ q, m ≠ run q := by
    cases ms with
    | nil => exact h
    | cons m ms =>
      cases m with
      | run q => exact absurd rfl ((h _ rfl).2 q)
      | sign k => exact h
      | name s => exact h
  induction qs with
  | nil => rfl
  | cons p qs ih =>
    rw [List.map_cons, List.cons_append, joinRuns, ih, List.cons_append]
    refine joinRun_of_ne fun n rest e => ?_
    -- a run in front of a zero is at most the last of the block, and behind that is no zero
    rcases qs with _ | ⟨p', _ | ⟨p'', qs⟩⟩
    · exact (first (run n) (congrArg List.head? e)).2 n rfl
    · obtain ⟨-, behind⟩ := List.cons.inj e
      exact (first (sign .zero) (congrArg List.head? behind)).1 rfl
    · cases e

/-- The spelling of a mark; of several, one that a keyboard has. -/
def token : Mark → Token
  | sign k => ⟨k, k.spelling⟩
  | name s => ⟨.variableName, s⟩
  | run q => ⟨.successor, successors q⟩

end Mark

/-- **The normal form of a list of tokens:** their marks, with the runs joined that stand one behind
the other in front of a zero. -/
def normalForm (ts : List Token) : List Mark :=
  Mark.joinRuns (ts.map Token.mark)

/-! ### The marks of a tree -/

/-- The marks of a term. -/
def Term.marks : Term → List Mark
  | numeral 0 => [.sign .zero]
  | numeral (n + 1) => [.run (n + 1), .sign .zero]
  | var v => [.name v.name]
  | successor q t => .run q :: t.marks
  | compound op x y =>
    .sign .openParen :: (x.marks ++ .sign op.sign :: (y.marks ++ [.sign .closeParen]))

/-- The marks of a formula. -/
def Formula.marks : Formula → List Mark
  | atom x y => x.marks ++ .sign .equals :: y.marks
  | negation F => .sign .negation :: F.marks
  | compound c F G =>
    .sign .openAngle :: (F.marks ++ .sign c.sign :: (G.marks ++ [.sign .closeAngle]))
  | quantification q v F => .sign q.sign :: .name v.name :: .sign .colon :: F.marks

@[simp] theorem Operation.mark_sign (op : Operation) (s : String) :
    Token.mark ⟨op.sign, s⟩ = .sign op.sign := by
  cases op <;> rfl

@[simp] theorem Connective.mark_sign (c : Connective) (s : String) :
    Token.mark ⟨c.sign, s⟩ = .sign c.sign := by
  cases c <;> rfl

@[simp] theorem Quantifier.mark_sign (q : Quantifier) (s : String) :
    Token.mark ⟨q.sign, s⟩ = .sign q.sign := by
  cases q <;> rfl

namespace Mark

/-- A run in front of a numeral makes a longer numeral. -/
theorem joinRun_numeral {q : Nat} (h : 1 ≤ q) (n : Nat) (ms : List Mark) :
    joinRun q ((Term.numeral n).marks ++ ms) = (Term.numeral (n + q)).marks ++ ms := by
  obtain ⟨p, rfl⟩ := Nat.exists_eq_add_of_le' h
  cases n with
  | zero => rw [Nat.zero_add]; rfl
  | succ n =>
    have total : p + 1 + (n + 1) = n + 1 + p + 1 := by omega
    show run (p + 1 + (n + 1)) :: sign .zero :: ms = run (n + 1 + p + 1) :: sign .zero :: ms
    rw [total]

/-- A run in front of a term that is no numeral stays apart, also from a run that the term begins
with. -/
theorem joinRun_marks {q : Nat} {t : Term} (ht : t.isNumeral = false) (folded : t.Folded)
    (ms : List Mark) : joinRun q (t.marks ++ ms) = run q :: (t.marks ++ ms) := by
  refine joinRun_of_ne fun n rest e => ?_
  cases t with
  | numeral n => cases ht
  | var v => cases e
  | compound op x y => cases e
  | successor p t =>
    obtain ⟨-, hn, -⟩ := folded
    cases t with
    | numeral n => cases hn
    | var v => cases e
    | successor p t => cases e
    | compound op x y => cases e

end Mark

/-! ### Tokens that derive a tree -/

/-- In front of whatever else, the joined marks of a derived term are those of the term. -/
theorem DerivesTerm.joinRuns_eq {ts : List Token} {t : Term} {l : Nat} (h : DerivesTerm ts t l)
    (spelled : ∀ u ∈ ts, u.Spelled) (ms : List Mark) :
    Mark.joinRuns (ts.map Token.mark ++ ms) = t.marks ++ Mark.joinRuns ms := by
  induction h generalizing ms with
  | zero s => rfl
  | var name => rfl
  | @numeral ts n l run h ih =>
    have behind := ih (fun u hu => spelled u (List.mem_cons_of_mem _ hu)) ms
    have length := (spelled _ List.mem_cons_self).one_le_length
    show Mark.joinRun run.length (Mark.joinRuns (ts.map Token.mark ++ ms)) = _
    rw [behind, Mark.joinRun_numeral length]
  | @successor ts t l run ht h ih =>
    have spelled_behind : ∀ u ∈ ts, u.Spelled := fun u hu => spelled u (List.mem_cons_of_mem _ hu)
    have folded := (h.canonical spelled_behind).1
    show Mark.joinRun run.length (Mark.joinRuns (ts.map Token.mark ++ ms)) = _
    rw [ih spelled_behind, Mark.joinRun_marks ht folded]
    rfl
  | @compound xs ys x y l m op a s b hx hy ihx ihy =>
    have left := ihx fun u hu => spelled u (by simp [hu])
    have right := ihy fun u hu => spelled u (by simp [hu])
    simp [Term.marks, Mark.joinRuns, left, right]

/-- In front of whatever else, the joined marks of a derived formula are those of the formula. -/
theorem DerivesFormula.joinRuns_eq {ts : List Token} {F : Formula} {l : Nat}
    (h : DerivesFormula ts F l) (spelled : ∀ u ∈ ts, u.Spelled) (ms : List Mark) :
    Mark.joinRuns (ts.map Token.mark ++ ms) = F.marks ++ Mark.joinRuns ms := by
  induction h generalizing ms with
  | @atom xs ys x y l m s hx hy =>
    have left := hx.joinRuns_eq fun u hu => spelled u (by simp [hu])
    have right := hy.joinRuns_eq fun u hu => spelled u (by simp [hu])
    simp [Formula.marks, Mark.joinRuns, left, right]
  | @negation fs F l s hF ih =>
    have body := ih fun u hu => spelled u (by simp [hu])
    simp [Formula.marks, Mark.joinRuns, body]
  | @compound fs gs F G l m c a s b hF hG ihF ihG =>
    have left := ihF fun u hu => spelled u (by simp [hu])
    have right := ihG fun u hu => spelled u (by simp [hu])
    simp [Formula.marks, Mark.joinRuns, left, right]
  | @quantification fs F l q a name s hF ih =>
    have body := ih fun u hu => spelled u (by simp [hu])
    simp [Formula.marks, Mark.joinRuns, body]

/-- **The normal form of the tokens that derive a formula is told by the formula.** -/
theorem DerivesFormula.normalForm_eq {ts : List Token} {F : Formula} {l : Nat}
    (h : DerivesFormula ts F l) (spelled : ∀ u ∈ ts, u.Spelled) : normalForm ts = F.marks := by
  have whole := h.joinRuns_eq spelled []
  rwa [List.append_nil, Mark.joinRuns, List.append_nil] at whole

/-! ### Marks written out -/

/-- **The marks of a canonical term, written out, derive it at its height.** -/
theorem Term.Canonical.derives_marks {t : Term} (h : t.Canonical) :
    DerivesTerm (t.marks.map Mark.token) t t.height := by
  induction t with
  | numeral n =>
    cases n with
    | zero => exact .zero "0"
    | succ n =>
      have run := DerivesTerm.numeral (successors (n + 1)) (.zero "0")
      rwa [length_successors, Nat.zero_add] at run
  | var v => exact .var v.name
  | successor q t ih =>
    obtain ⟨-, hn, ht⟩ := canonical_successor.mp h
    have run := DerivesTerm.successor (successors q) hn (ih ht)
    rwa [length_successors] at run
  | compound op x y ihx ihy =>
    obtain ⟨hx, hy⟩ := canonical_compound.mp h
    rw [marks, List.map_cons, List.map_append, List.map_cons, List.map_append]
    exact .compound op "(" op.sign.spelling ")" (ihx hx) (ihy hy)

/-- **The marks of a canonical formula, written out, derive it at its height.** -/
theorem Formula.Canonical.derives_marks {F : Formula} (h : F.Canonical) :
    DerivesFormula (F.marks.map Mark.token) F F.height := by
  induction F with
  | atom x y =>
    obtain ⟨hx, hy⟩ := h
    rw [marks, List.map_append, List.map_cons]
    exact .atom "=" hx.derives_marks hy.derives_marks
  | negation F ih => exact .negation "~" (ih h)
  | compound c F G ihF ihG =>
    obtain ⟨hF, hG⟩ := h
    rw [marks, List.map_cons, List.map_append, List.map_cons, List.map_append]
    exact .compound c "<" c.sign.spelling ">" (ihF hF) (ihG hG)
  | quantification q v F ih => exact .quantification q q.sign.spelling v.name ":" (ih h.2)

/-- **Canonical formulas with the same marks are the same.**  The same tokens derive both, and tokens
lead to one formula only. -/
theorem Formula.Canonical.eq_of_marks_eq {F G : Formula} (hF : F.Canonical) (hG : G.Canonical)
    (h : F.marks = G.marks) : F = G := by
  have leads := hF.derives_marks.leads_start.1
  rw [h, hG.derives_marks.leads_start.1] at leads
  cases leads
  rfl

/-! ### Texts and the trees that are read of them -/

/-- **What is read of a text** is canonical, no higher than the bound, and has the marks that the
text has in its normal form. -/
theorem Formula.canonical_of_parse {source : String} {bound : Nat} {F : Formula}
    (h : Formula.parse source bound = .ok F) :
    F.Canonical ∧ F.height ≤ bound ∧ normalForm (tokenize source) = F.marks := by
  have outcome := Formula.outcome_parse source bound
  rw [h] at outcome
  obtain ⟨-, l, within, derives⟩ := outcome.derives
  have spelled : ∀ u ∈ tokenize source, u.Spelled := fun u hu => Token.spelled_of_mem_drain hu
  exact ⟨derives.canonical spelled, Nat.le_trans derives.height_le within,
    derives.normalForm_eq spelled⟩

/-- **Two texts give the same tree exactly when their tokens have the same normal form.** -/
theorem Formula.eq_iff_normalForm_eq {u v : String} {d e : Nat} {F G : Formula}
    (hu : Formula.parse u d = .ok F) (hv : Formula.parse v e = .ok G) :
    F = G ↔ normalForm (tokenize u) = normalForm (tokenize v) := by
  obtain ⟨hF, -, marksF⟩ := canonical_of_parse hu
  obtain ⟨hG, -, marksG⟩ := canonical_of_parse hv
  rw [marksF, marksG]
  constructor
  · rintro rfl
    rfl
  · exact hF.eq_of_marks_eq hG

/-- The hypotheses are met by texts that differ in blanks and look-alikes, and by one with other
runs: in front of a zero the runs may be split as one likes, in front of a variable not. -/
theorem Formula.eq_iff_normalForm_eq_runs :
    ∃ F G, Formula.parse "∀a:S S 0=S Sa" 6 = .ok F ∧ Formula.parse "A a : SS0 =S Sa" 6 = .ok F ∧
      Formula.parse "∀a:S S 0=SSa" 6 = .ok G ∧
      normalForm (tokenize "∀a:S S 0=S Sa") = normalForm (tokenize "A a : SS0 =S Sa") ∧
      normalForm (tokenize "∀a:S S 0=S Sa") ≠ normalForm (tokenize "∀a:S S 0=SSa") := by
  have apart : Formula.parse "∀a:S S 0=S Sa" 6 = .ok (.quantification .forAll ⟨"a"⟩
      (.atom (.numeral 2) (.successor 1 (.successor 1 (.var ⟨"a"⟩))))) := by cbv
  have respelled : Formula.parse "A a : SS0 =S Sa" 6 = .ok (.quantification .forAll ⟨"a"⟩
      (.atom (.numeral 2) (.successor 1 (.successor 1 (.var ⟨"a"⟩))))) := by cbv
  have together : Formula.parse "∀a:S S 0=SSa" 6 = .ok (.quantification .forAll ⟨"a"⟩
      (.atom (.numeral 2) (.successor 2 (.var ⟨"a"⟩)))) := by cbv
  refine ⟨_, _, apart, respelled, together, ?_, fun same => ?_⟩
  · exact (Formula.eq_iff_normalForm_eq apart respelled).mp rfl
  · cases (Formula.eq_iff_normalForm_eq apart together).mpr same

end Typographical
