/-
# What is written in one line

The text that is read may have line feeds in it, and so may the name of a file.
What the program says about a text has none.  It shows pieces of the text only
between quotation marks, where a line feed is written in another way
(`Text.oneLine_quoted`), and names only variables that can be written in a
formula.  So the message of every error of a reading, every finding about what
is read and every entry in the log is one line.
-/

import Typographical.Command.Run
import Typographical.Proofs.Findings
import Typographical.Proofs.NormalForm

namespace Typographical

/-- A text without line feed. -/
def Text.OneLine (s : String) : Prop :=
  '\n' ∉ s.toList

namespace Text

/-- The characters of a text that is written out are there to be looked at. -/
theorem OneLine.literal {l : List Char} (h : l.contains '\n' = false) :
    OneLine (String.ofList l) := by
  rw [OneLine, String.toList_ofList, ← List.contains_iff_mem, h]
  exact Bool.false_ne_true

theorem OneLine.append {s t : String} (hs : OneLine s) (ht : OneLine t) : OneLine (s ++ t) := by
  rw [OneLine, String.toList_append, List.mem_append, not_or]
  exact ⟨hs, ht⟩

theorem OneLine.intercalate {s : String} {l : List String} (hs : OneLine s)
    (hl : ∀ t ∈ l, OneLine t) : OneLine (s.intercalate l) := by
  induction l with
  | nil => exact .literal rfl
  | cons t l ih =>
    have first := hl t List.mem_cons_self
    have rest := ih fun u hu => hl u (List.mem_cons_of_mem _ hu)
    cases l with
    | nil => rwa [String.intercalate_singleton]
    | cons u l =>
      rw [String.intercalate_cons_cons]
      exact (first.append hs).append rest

/-! ### Numbers -/

theorem newline_not_mem_toDigits {base : Nat} (h : 1 < base) (n : Nat) :
    '\n' ∉ Nat.toDigits base n := by
  have digit (m : Nat) : '\n' ≠ m.digitChar := (Nat.digitChar_ne '\n' (by decide)).symm
  induction n using Nat.strongRecOn with
  | ind n ih =>
    rw [Nat.toDigits_eq_if h]
    split
    · rw [List.mem_singleton]
      exact digit n
    · next several =>
      have fewer : n / base < n := Nat.div_lt_self (by omega) h
      rw [List.mem_append, List.mem_singleton, not_or]
      exact ⟨ih _ fewer, digit _⟩

theorem oneLine_int (n : Int) : OneLine (toString n) := by
  have digits (m : Nat) : OneLine m.repr := by
    rw [Nat.repr_eq_ofList_toDigits, OneLine, String.toList_ofList]
    exact newline_not_mem_toDigits (by decide) m
  cases n with
  | ofNat m => exact digits m
  | negSucc m => exact .append (.literal rfl) (digits (m + 1))

/-! ### Quoted text -/

theorem newline_not_mem_hexadecimal (width n : Nat) : '\n' ∉ hexadecimal width n := by
  rw [hexadecimal, List.mem_append, not_or]
  refine ⟨fun filled => ?_, newline_not_mem_toDigits (by decide) n⟩
  exact absurd (List.eq_of_mem_replicate filled) (by decide)

theorem newline_not_mem_quotedChar {mark : Char} (h : mark ≠ '\n') (c : Char) :
    '\n' ∉ quotedChar mark c := by
  have coded (letter : Char) (hl : letter ≠ '\n') (width : Nat) :
      '\n' ∉ '\\' :: letter :: hexadecimal width c.toNat := by
    simp only [List.mem_cons, not_or]
    exact ⟨by decide, hl.symm, newline_not_mem_hexadecimal width c.toNat⟩
  by_cases isNewline : c = '\n'
  · subst isNewline
    have noMark : ('\n' == mark) = false := beq_eq_false_iff_ne.mpr h.symm
    rw [quotedChar, noMark]
    decide
  · have itself : '\n' ∉ [c] := by simp [Ne.symm isNewline]
    unfold quotedChar
    split_ifs
    · exact fun escaped => itself (List.mem_of_ne_of_mem (by decide) escaped)
    all_goals first | decide | exact itself | exact coded _ (by decide) _

/-- **A text between quotation marks is one line,** whatever it is. -/
theorem oneLine_quoted (s : String) : OneLine (quoted s) := by
  have mark : quotationMark s.toList ≠ '\n' := by
    unfold quotationMark
    split <;> decide
  rw [quoted, OneLine, String.toList_ofList, List.mem_append, List.mem_cons, List.mem_singleton,
    List.mem_flatMap]
  rintro ((first | ⟨c, -, escaped⟩) | last)
  · exact mark first.symm
  · exact newline_not_mem_quotedChar mark c escaped
  · exact mark last.symm

end Text

open Text

/-! ### Messages -/

theorem TokenKind.oneLine_label (k : TokenKind) : OneLine k.label := by
  cases k <;> exact .literal rfl

theorem Due.oneLine_wording {g : Goal} (d : Due g) : OneLine d.wording := by
  cases d <;> exact .literal rfl

namespace ParseFault

theorem oneLine_trailingInput (k : TokenKind) (lexeme : String) :
    OneLine (trailingInput k lexeme).description := by
  have label := k.oneLine_label
  have shown := oneLine_quoted lexeme
  exact .append (.append (.append (.literal rfl) label) (.literal rfl)) shown

theorem oneLine_nestingTooDeep (bound : Int) : OneLine (nestingTooDeep bound).description := by
  have digits := oneLine_int bound
  exact .append (.append (.literal rfl) digits) (.literal rfl)

theorem oneLine_ofToken {expected : String} (h : OneLine expected) (t : Token) :
    OneLine (ofToken expected t).description := by
  have shown := oneLine_quoted t.text
  unfold ofToken
  split
  · exact .append (.append (.literal rfl) h) (.literal rfl)
  · exact .append (.literal rfl) shown
  · have label := t.kind.oneLine_label
    exact .append (.append (.append (.append (.append (.literal rfl) h) (.literal rfl)) label)
      (.literal rfl)) shown

end ParseFault

theorem ParseError.oneLine_message {e : ParseError} (h : OneLine e.fault.description) :
    OneLine e.message := by
  obtain ⟨fault, position⟩ := e
  cases position with
  | none => exact h
  | some n =>
    have digits := oneLine_int n
    exact .append (.append h (.literal rfl)) digits

/-- **The message about a text that is no formula is one line.** -/
theorem Formula.oneLine_of_parse {source : String} {bound : Nat} {e : ParseError}
    (h : Formula.parse source bound = .error e) : OneLine e.message := by
  have outcome := Formula.outcome_parse source bound
  rw [h] at outcome
  refine ParseError.oneLine_message ?_
  cases outcome with
  | trailing reads run goesOn => exact ParseFault.oneLine_trailingInput _ _
  | refused reads run none => exact ParseFault.oneLine_ofToken (Due.oneLine_wording _) _
  | tooDeep reads run beyond => exact ParseFault.oneLine_nestingTooDeep _

/-- The message about settings is one line if what the validator says is. -/
theorem SettingsError.oneLine_message {e : SettingsError} (h : OneLine e.description) :
    OneLine e.message := by
  have name : OneLine e.source.name := by
    cases e.source <;> exact .literal rfl
  exact .append (.append (.append (.literal rfl) name) (.literal rfl)) h

/-! ### Findings -/

/-- **What is canonical mentions only what can be written.** -/
theorem Formula.Canonical.writable_of_mentions {F : Formula} (h : F.Canonical) {v : Variable}
    (mentions : F.Mentions v) : v.Writable := by
  induction F with
  | atom x y =>
    rcases mentions with occurs | quantified
    · rcases occurs_atom.mp occurs with left | right
      · exact h.1.2 v left
      · exact h.2.2 v right
    · exact absurd quantified quantifies_atom
  | negation F ih => exact ih h (mentions_negation.mp mentions)
  | compound c F G ihF ihG =>
    rcases mentions_compound.mp mentions with left | right
    · exact ihF h.1 left
    · exact ihG h.2 right
  | quantification q w B ih =>
    rcases mentions_quantification.mp mentions with rfl | body
    · exact h.1
    · exact ih h.2 body

theorem Path.oneLine_render {root : String} (h : OneLine root) (p : Path) :
    OneLine (p.render root) := by
  induction p generalizing root with
  | nil => exact h
  | cons s p ih =>
    have word : OneLine s.word := by
      cases s <;> exact .literal rfl
    exact ih (.append (.append h (.literal rfl)) word)

theorem Issue.oneLine_message {i : Issue} (h : ∀ name ∈ i.vars, OneLine name) :
    OneLine i.message := by
  cases i with
  | capture p c vs =>
    have names : OneLine vs.render :=
      .append (.append (.literal rfl) (.intercalate (.literal rfl) h)) (.literal rfl)
    have word : OneLine c.word := by
      cases c <;> exact .literal rfl
    exact .append (.append (.append (.append (.literal rfl) names) (.literal rfl)) word)
      (.literal rfl)
  | vacuous p v =>
    have name := h v.name List.mem_cons_self
    exact .append (.append (.literal rfl) name) (.literal rfl)

/-- **The notices about what is read of a text are lines.** -/
theorem Formula.oneLine_of_mem_findings {source : String} {bound : Nat} {F : Formula}
    (h : Formula.parse source bound = .ok F) {f : Finding} (listed : f ∈ F.findings rootName) :
    OneLine f.code ∧ OneLine f.path ∧ OneLine f.message := by
  obtain ⟨canonical, -, -⟩ := canonical_of_parse h
  obtain ⟨i, issue, rfl⟩ := List.mem_map.mp listed
  have names : ∀ name ∈ i.vars, OneLine name := by
    intro name hn
    have writable := canonical.writable_of_mentions (mentions_of_mem_diagnose issue hn)
    exact writable.not_mem_name rfl rfl
  refine ⟨?_, Path.oneLine_render (.literal rfl) i.path, Issue.oneLine_message names⟩
  cases i <;> exact .literal rfl

theorem Formula.oneLine_kind (F : Formula) : OneLine F.kind := by
  cases F <;> exact .literal rfl

end Typographical
