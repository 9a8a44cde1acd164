/-
# Writing a formula down

`Formula.render` writes a tree with one character for each sign, a numeral as a
run of `S` in front of `0`, and a blank behind every other run, which keeps it
apart from a run that the term under it begins with.

The tokens of a canonical tree so written are its marks
(`Formula.Canonical.tokenize_render`), which derive it at its height.  So reading
undoes writing, under every bound that has room for the tree; and since nothing
is read that is not canonical, or higher than the bound, what is read of any text
can be written down and read again (`Formula.parse_render`).
-/

import Typographical.Proofs.NormalForm

namespace Typographical

/-- A term written down. -/
def Term.render : Term → String
  | numeral n => successors n ++ "0"
  | var v => v.name
  | successor q t => successors q ++ " " ++ t.render
  | compound op x y => "(" ++ x.render ++ op.sign.spelling ++ y.render ++ ")"

/-- A formula written down. -/
def Formula.render : Formula → String
  | atom x y => x.render ++ "=" ++ y.render
  | negation F => "~" ++ F.render
  | compound c F G => "<" ++ F.render ++ c.sign.spelling ++ G.render ++ ">"
  | quantification q v F => q.sign.spelling ++ v.name ++ ":" ++ F.render

example : (Formula.quantification .thereExists ⟨"a\x27"⟩ (.atom (.numeral 2)
    (.compound .product (.successor 2 (.successor 1 (.var ⟨"a\x27"⟩))) (.var ⟨"b"⟩)))).render =
      "Ea\x27:SS0=(SS S a\x27*b)" := by decide

/-! ### The tokens of what is written -/

/-- No prime comes first. -/
def StopsName (l : List Char) : Prop :=
  ∀ c ∈ l.head?, isPrime c = false

theorem stopsName_nil : StopsName [] := by
  nofun

theorem stopsName_cons {c : Char} (h : isPrime c = false) (l : List Char) : StopsName (c :: l) := by
  intro d hd
  cases hd
  exact h

theorem stopsName_spelling {k : TokenKind} (h : k.spelling ≠ "") (l : List Char) :
    StopsName (k.spelling.toList ++ l) := by
  cases k <;> first | exact stopsName_cons rfl l | exact absurd rfl h

theorem Operation.spelling_ne (op : Operation) : op.sign.spelling ≠ "" := by
  cases op <;> decide

theorem Connective.spelling_ne (c : Connective) : c.sign.spelling ≠ "" := by
  cases c <;> decide

theorem Quantifier.spelling_ne (q : Quantifier) : q.sign.spelling ≠ "" := by
  cases q <;> decide

theorem Variable.Writable.lexemes_name {v : Variable} {l : List Char} (h : v.Writable)
    (stops : StopsName l) :
    lexemes (v.name.toList ++ l) = ⟨.variableName, v.name⟩ :: lexemes l := by
  obtain ⟨letter, primes, e, hl, hp⟩ := h
  rw [e, String.toList_ofList, List.cons_append]
  exact Typographical.lexemes_name hl hp stops

/-- **The tokens of a canonical term written down are its marks,** where no prime comes behind it. -/
theorem Term.Canonical.lexemes_render {t : Term} (h : t.Canonical) {l : List Char}
    (stops : StopsName l) :
    lexemes (t.render.toList ++ l) = t.marks.map Mark.token ++ lexemes l := by
  induction t generalizing l with
  | numeral n =>
    cases n with
    | zero => exact lexemes_symbol rfl l
    | succ n =>
      have letters : (numeral (n + 1)).render.toList ++ l =
          (successors (n + 1)).toList ++ '0' :: l := by simp [render]
      rw [letters, lexemes_run (Nat.le_add_left 1 n) (by simp [isSuccessorLetter]),
        lexemes_symbol rfl]
      rfl
  | var v => exact (canonical_var.mp h).lexemes_name stops
  | successor q t ih =>
    obtain ⟨hq, -, ht⟩ := canonical_successor.mp h
    have letters : (successor q t).render.toList ++ l =
        (successors q).toList ++ ' ' :: (t.render.toList ++ l) := by simp [render]
    rw [letters, lexemes_run hq (by simp [isSuccessorLetter]), lexemes_blank rfl, ih ht stops]
    rfl
  | compound op x y ihx ihy =>
    obtain ⟨hx, hy⟩ := canonical_compound.mp h
    have letters : (compound op x y).render.toList ++ l =
        '(' :: (x.render.toList ++ (op.sign.spelling.toList ++ (y.render.toList ++ ')' :: l))) := by
      simp [render]
    rw [letters, lexemes_symbol rfl, ihx hx (stopsName_spelling op.spelling_ne _),
      lexemes_spelling op.spelling_ne, ihy hy (stopsName_cons rfl l), lexemes_symbol rfl]
    simp only [marks, List.map_cons, List.map_append, List.cons_append, List.append_assoc]
    rfl

/-- **The tokens of a canonical formula written down are its marks,** where no prime comes behind
it. -/
theorem Formula.Canonical.lexemes_render {F : Formula} (h : F.Canonical) {l : List Char}
    (stops : StopsName l) :
    lexemes (F.render.toList ++ l) = F.marks.map Mark.token ++ lexemes l := by
  induction F generalizing l with
  | atom x y =>
    obtain ⟨hx, hy⟩ := h
    have letters : (atom x y).render.toList ++ l =
        x.render.toList ++ '=' :: (y.render.toList ++ l) := by simp [render]
    rw [letters, hx.lexemes_render (stopsName_cons rfl _), lexemes_symbol rfl,
      hy.lexemes_render stops]
    simp only [marks, List.map_cons, List.map_append, List.cons_append, List.append_assoc]
    rfl
  | negation F ih =>
    have letters : (negation F).render.toList ++ l = '~' :: (F.render.toList ++ l) := by
      simp [render]
    rw [letters, lexemes_symbol rfl, ih h stops]
    rfl
  | compound c F G ihF ihG =>
    obtain ⟨hF, hG⟩ := h
    have letters : (compound c F G).render.toList ++ l =
        '<' :: (F.render.toList ++ (c.sign.spelling.toList ++ (G.render.toList ++ '>' :: l))) := by
      simp [render]
    rw [letters, lexemes_symbol rfl, ihF hF (stopsName_spelling c.spelling_ne _),
      lexemes_spelling c.spelling_ne, ihG hG (stopsName_cons rfl l), lexemes_symbol rfl]
    simp only [marks, List.map_cons, List.map_append, List.cons_append, List.append_assoc]
    rfl
  | quantification q v F ih =>
    obtain ⟨hv, hF⟩ := h
    have letters : (quantification q v F).render.toList ++ l =
        q.sign.spelling.toList ++ (v.name.toList ++ ':' :: (F.render.toList ++ l)) := by
      simp [render]
    rw [letters, lexemes_spelling q.spelling_ne, hv.lexemes_name (stopsName_cons rfl _),
      lexemes_symbol rfl, ih hF stops]
    rfl

theorem Formula.Canonical.tokenize_render {F : Formula} (h : F.Canonical) :
    tokenize F.render = F.marks.map Mark.token := by
  have whole := h.lexemes_render stopsName_nil
  rwa [List.append_nil, lexemes_nil, List.append_nil] at whole

/-! ### Reading what is written -/

/-- **A canonical formula written down derives itself at its height.** -/
theorem Formula.Canonical.derives_render {F : Formula} (h : F.Canonical) :
    DerivesFormula (tokenize F.render) F F.height := by
  rw [h.tokenize_render]
  exact h.derives_marks

/-- **Reading undoes writing, and gives nothing that could not be written.**  A canonical formula
that is written down is read again under every bound that is not below its height, and is too deep
under a lower one.  What is read of any text is canonical and no higher than the bound, so that it is
read again under the same bound when it is written down. -/
theorem Formula.parse_render :
    (∀ F : Formula, F.Canonical →
      (∀ d, F.height ≤ d → Formula.parse F.render d = .ok F) ∧
      ∀ d, d < F.height →
        ∃ position, Formula.parse F.render d = .error ⟨.nestingTooDeep d, position⟩) ∧
    ∀ (source : String) (d : Nat) (F : Formula), Formula.parse source d = .ok F →
      F.Canonical ∧ F.height ≤ d ∧ Formula.parse F.render d = .ok F := by
  have reads (F : Formula) (h : F.Canonical) (d : Nat) :=
    (Formula.outcome_parse F.render d).eq_of_derives h.derives_render
  refine ⟨fun F h => ⟨fun d high => ?_, fun d low => ?_⟩, fun source d F h => ?_⟩
  · rcases reads F h d with ⟨-, read⟩ | ⟨low, -⟩
    · exact read
    · omega
  · rcases reads F h d with ⟨high, -⟩ | ⟨-, tooDeep⟩
    · omega
    · exact tooDeep
  · obtain ⟨canonical, high, -⟩ := canonical_of_parse h
    rcases reads F canonical d with ⟨-, read⟩ | ⟨low, -⟩
    · exact ⟨canonical, high, read⟩
    · omega

/-- The hypotheses are met by what is read of a text with other signs and blanks than it is written
with: it is six levels high, and five are too few. -/
theorem Formula.parse_render_respelled :
    ∃ F, Formula.parse "∀a\x27 : S S 0=(SS S a\x27·b)" 6 = .ok F ∧ F.Canonical ∧
      Formula.parse F.render 6 = .ok F ∧ 5 < F.height ∧
      ∃ position, Formula.parse F.render 5 = .error ⟨.nestingTooDeep 5, position⟩ := by
  have read : Formula.parse "∀a\x27 : S S 0=(SS S a\x27·b)" 6 =
      .ok (.quantification .forAll ⟨"a\x27"⟩ (.atom (.numeral 2)
        (.compound .product (.successor 2 (.successor 1 (.var ⟨"a\x27"⟩))) (.var ⟨"b"⟩)))) := by cbv
  obtain ⟨canonical, -, again⟩ := Formula.parse_render.2 _ 6 _ read
  have low : 5 < Formula.height (.quantification .forAll ⟨"a\x27"⟩ (.atom (.numeral 2)
      (.compound .product (.successor 2 (.successor 1 (.var ⟨"a\x27"⟩))) (.var ⟨"b"⟩)))) := by decide
  exact ⟨_, read, canonical, again, low, (Formula.parse_render.1 _ canonical).2 5 low⟩

end Typographical
