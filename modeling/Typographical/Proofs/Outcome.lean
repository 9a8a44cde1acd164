/-
# How a reading ends

A reading by `Parser.read` takes tokens from the scanner until one of three
things happens: its goal is met, a token is refused, or a token would take it
beyond the bound.  `Parser.Outcome` states each of them by the tokens taken, their
run and their deepest level, together with the answer and the parser left behind.
A reading starts where no level is open, and between two tokens as many are as
constructs wait (`Parser.StandsAt`); so it ends in one of these ways
(`Parser.outcome_read`).

A text that must be one formula has a fourth way to end, with something behind
the formula (`Formula.Outcome`, `Formula.outcome_parse`).  No stop is ever taken,
so the tokens taken are those `tokenize` begins with
(`Scanner.Reads.tokenize_cases`).
-/

import Typographical.Proofs.Derivation
import Typographical.Proofs.Nesting
import Typographical.Proofs.Scan

namespace Typographical

/-- **What a run takes does not stop reading.** -/
theorem Progress.isStop_of_run {g : Goal} {P Q : Progress g} {us : List Token}
    (h : P.run us = some Q) : ∀ t ∈ us, t.kind.isStop = false := by
  induction us generalizing P with
  | nil => nofun
  | cons u us ih =>
    cases P with
    | done T => cases h
    | due c =>
      obtain ⟨R, hR, hQ⟩ := Option.bind_eq_some_iff.mp h
      intro t ht
      rcases List.mem_cons.mp ht with rfl | ht
      · exact Due.isStop_of_next? hR
      · exact ih hQ t ht

namespace Parser

variable {g : Goal}

/-- The parser is where something is due: as many levels are open as constructs wait for it, and
these have been entered within the bound. -/
structure StandsAt (p : Parser) (c : Due g) : Prop where
  hasLevel : c.HasLevel
  depth_eq : p.depth = c.depth
  depth_le_deepest : p.depth ≤ p.deepest
  depth_le_allowed : p.depth ≤ p.deepestAllowed

/-- A reading may start where no level is open. -/
theorem StandsAt.of_closed {c : Due g} {p : Parser} (level : c.HasLevel) (start : c.depth = 0)
    (closed : p.depth = 0) : p.StandsAt c where
  hasLevel := level
  depth_eq := closed.trans start.symm
  depth_le_deepest := closed ▸ Nat.zero_le _
  depth_le_allowed := closed ▸ Nat.zero_le _

/-- So may the reading of a text as a formula. -/
theorem standsAt_ofString (source : String) (bound : Int) :
    (ofString source bound).StandsAt (.formula (.outermost 1)) :=
  .of_closed (Nat.le_refl 1) rfl rfl

/-- The parser that is left when a reading has ended behind a scanner and has been no deeper than
a level. -/
def left (p : Parser) (scanner : Scanner) (level : Nat) : Parser :=
  { p with scanner, depth := 0, deepest := max p.deepest level }

/-! ### One token -/

/-- **The next token is too deep, refused or taken.** -/
theorem advance_cases {c : Due g} {p : Parser} (h : p.StandsAt c) :
    (p.deepestAllowed < c.reach p.scanner.scan.1.kind ∧
      p.advance c =
        (.error ⟨.nestingTooDeep p.bound, some p.scanner.scan.2.offset⟩,
          p.left p.scanner.scan.2 (p.deepestAllowed + 1))) ∨
    (c.reach p.scanner.scan.1.kind ≤ p.deepestAllowed ∧ c.next? p.scanner.scan.1 = none ∧
      p.advance c =
        (.error ⟨.ofToken c.wording p.scanner.scan.1, some p.scanner.scan.2.offset⟩,
          p.left p.scanner.scan.2 (c.reach p.scanner.scan.1.kind))) ∨
    ∃ P, c.reach p.scanner.scan.1.kind ≤ p.deepestAllowed ∧ c.next? p.scanner.scan.1 = some P ∧
      p.advance c =
        (.ok P,
          { p.left p.scanner.scan.2 (c.reach p.scanner.scan.1.kind) with depth := P.depth }) := by
  have reach := Due.reach_cases h.hasLevel p.scanner.scan.1.kind
  have depth : p.next.2.depth = c.depth := h.depth_eq
  have allowed : p.next.2.deepestAllowed = p.deepestAllowed := rfl
  have low : c.depth ≤ p.deepestAllowed := h.depth_eq ▸ h.depth_le_allowed
  have level : p.next.2.levelAfter (c.opens p.scanner.scan.1.kind) =
      c.reach p.scanner.scan.1.kind := by
    rw [levelAfter, depth]
    split <;> omega
  rcases take_cases c p.scanner.scan.1 p.next.2 with
    ⟨some, beyond, e⟩ | ⟨within, none, e⟩ | ⟨P, within, taken, e⟩
  · rw [depth, allowed] at beyond
    rw [depth, allowed, Nat.sub_self, Nat.max_eq_right low] at e
    exact .inl ⟨by omega, e⟩
  · rw [depth, allowed] at within
    rw [depth, level, Nat.sub_self] at e
    exact .inr (.inl ⟨by omega, none, e⟩)
  · have balance := (Due.depth_add_closes h.hasLevel taken).1
    have left : c.depth + c.opens p.scanner.scan.1.kind - c.closes p.scanner.scan.1.kind =
        P.depth := by omega
    rw [depth, allowed] at within
    rw [depth, level, left] at e
    exact .inr (.inr ⟨P, by omega, taken, e⟩)

section Token

variable {c : Due g} {p : Parser}

theorem advance_of_lt (h : p.StandsAt c)
    (beyond : p.deepestAllowed < c.reach p.scanner.scan.1.kind) :
    p.advance c =
      (.error ⟨.nestingTooDeep p.bound, some p.scanner.scan.2.offset⟩,
        p.left p.scanner.scan.2 (p.deepestAllowed + 1)) := by
  rcases advance_cases h with ⟨-, e⟩ | ⟨within, -, -⟩ | ⟨P, within, -, -⟩
  · exact e
  · exact absurd within (Nat.not_le.mpr beyond)
  · exact absurd within (Nat.not_le.mpr beyond)

theorem advance_of_refused (h : p.StandsAt c)
    (within : c.reach p.scanner.scan.1.kind ≤ p.deepestAllowed)
    (none : c.next? p.scanner.scan.1 = none) :
    p.advance c =
      (.error ⟨.ofToken c.wording p.scanner.scan.1, some p.scanner.scan.2.offset⟩,
        p.left p.scanner.scan.2 (c.reach p.scanner.scan.1.kind)) := by
  rcases advance_cases h with ⟨beyond, -⟩ | ⟨-, -, e⟩ | ⟨P, -, some, -⟩
  · exact absurd within (Nat.not_le.mpr beyond)
  · exact e
  · cases none.symm.trans some

theorem advance_of_taken {P : Progress g} (h : p.StandsAt c)
    (within : c.reach p.scanner.scan.1.kind ≤ p.deepestAllowed)
    (some : c.next? p.scanner.scan.1 = some P) :
    p.advance c =
      (.ok P,
        { p.left p.scanner.scan.2 (c.reach p.scanner.scan.1.kind) with depth := P.depth }) := by
  rcases advance_cases h with ⟨beyond, -⟩ | ⟨-, none, -⟩ | ⟨P', -, some', e⟩
  · exact absurd within (Nat.not_le.mpr beyond)
  · cases none.symm.trans some
  · obtain rfl : P' = P := Option.some.inj (some'.symm.trans some)
    exact e

/-- **Behind a token that is taken the parser is where the next thing is due.** -/
theorem StandsAt.advance {next : Due g} {later : Parser} (h : p.StandsAt c)
    (taken : p.advance c = (.ok (.due next), later)) : later.StandsAt next := by
  rcases advance_cases h with ⟨-, e⟩ | ⟨-, -, e⟩ | ⟨P, within, some, e⟩ <;>
    cases taken.symm.trans e
  have reached : next.depth ≤ _ := Due.depth_next?_le h.hasLevel some
  have deepest := h.depth_le_deepest
  have allowed := h.depth_le_allowed
  rw [h.depth_eq] at deepest allowed
  refine ⟨(Due.depth_add_closes h.hasLevel some).2, rfl, ?_, ?_⟩
  · show next.depth ≤ max p.deepest _
    omega
  · show next.depth ≤ p.deepestAllowed
    omega

end Token

/-! ### A whole reading -/

/-- How a reading ends, with what it gives and the parser it leaves. -/
inductive Outcome (c : Due g) (p : Parser) : Except ParseError g.Tree × Parser → Prop
  | met {us : List Token} {last : Scanner} {T : g.Tree} (reads : p.scanner.Reads us last)
      (run : (Progress.due c).run us = some (.done T))
      (allowed : (Progress.due c).peak us ≤ p.deepestAllowed) :
      Outcome c p (.ok T, p.left last ((Progress.due c).peak us))
  | refused {us : List Token} {last : Scanner} {d : Due g} (reads : p.scanner.Reads us last)
      (run : (Progress.due c).run us = some (.due d))
      (allowed : (Progress.due c).peak (us ++ [last.scan.1]) ≤ p.deepestAllowed)
      (none : d.next? last.scan.1 = none) :
      Outcome c p
        (.error ⟨.ofToken d.wording last.scan.1, some last.scan.2.offset⟩,
          p.left last.scan.2 ((Progress.due c).peak (us ++ [last.scan.1])))
  | tooDeep {us : List Token} {last : Scanner} {d : Due g} (reads : p.scanner.Reads us last)
      (run : (Progress.due c).run us = some (.due d))
      (allowed : (Progress.due c).peak us ≤ p.deepestAllowed)
      (beyond : p.deepestAllowed < d.reach last.scan.1.kind) :
      Outcome c p
        (.error ⟨.nestingTooDeep p.bound, some last.scan.2.offset⟩,
          p.left last.scan.2 (p.deepestAllowed + 1))

/-- **A token that is taken comes before all that the rest of the reading takes.** -/
theorem Outcome.cons {c d : Due g} {p later : Parser} {r : Except ParseError g.Tree × Parser}
    (h : c.reach p.scanner.scan.1.kind ≤ p.deepestAllowed)
    (k : c.next? p.scanner.scan.1 = some (.due d))
    (e : later = { p.left p.scanner.scan.2 (c.reach p.scanner.scan.1.kind) with depth := d.depth })
    (rest : Outcome d later r) : Outcome c p r := by
  have level (us : List Token) : (Progress.due c).peak (p.scanner.scan.1 :: us) =
      max (c.reach p.scanner.scan.1.kind) ((Progress.due d).peak us) := by
    rw [Progress.peak_due_cons, k, Option.elim_some]
  have behind (last : Scanner) (n : Nat) :
      later.left last n = p.left last (max (c.reach p.scanner.scan.1.kind) n) := by
    rw [e]
    simp only [left, Nat.max_assoc]
  have bound : later.deepestAllowed = p.deepestAllowed := by rw [e]; rfl
  have scanner : later.scanner = p.scanner.scan.2 := by rw [e]; rfl
  cases rest with
  | @met us last T reads run allowed =>
    rw [scanner] at reads
    rw [bound] at allowed
    rw [behind, ← level]
    refine .met (.cons reads) ?_ ?_
    · rw [Progress.run_due_cons, k, Option.bind_some, run]
    · rw [level]
      omega
  | @refused us last d' reads run allowed none =>
    rw [scanner] at reads
    rw [bound] at allowed
    rw [behind, ← level]
    refine .refused (.cons reads) ?_ ?_ none
    · rw [Progress.run_due_cons, k, Option.bind_some, run]
    · rw [List.cons_append, level]
      omega
  | @tooDeep us last d' reads run allowed beyond =>
    rw [scanner] at reads
    rw [bound] at allowed beyond
    have deepest : max (c.reach p.scanner.scan.1.kind) (p.deepestAllowed + 1) =
        p.deepestAllowed + 1 := by omega
    have named : later.bound = p.bound := by rw [e]; rfl
    rw [behind, bound, deepest, named]
    refine .tooDeep (.cons reads) ?_ ?_ beyond
    · rw [Progress.run_due_cons, k, Option.bind_some, run]
    · rw [level]
      omega

/-- **A reading meets its goal, is refused a token or is taken too deep.** -/
theorem outcome_read {c : Due g} {p : Parser} (h : p.StandsAt c) : Outcome c p (p.read c) := by
  -- the reading goes on only behind a token that shortens what is left
  induction hn : p.scanner.rest.length using Nat.strongRecOn generalizing c p with
  | ind n ih =>
    subst hn
    rw [read_eq]
    rcases advance_cases h with ⟨beyond, e⟩ | ⟨within, k, e⟩ | ⟨P, within, k, e⟩
    · rw [e]
      exact .tooDeep (.nil _) (Progress.run_nil _) (by simp) beyond
    · have level : (Progress.due c).peak ([] ++ [p.scanner.scan.1]) =
          c.reach p.scanner.scan.1.kind := by simp [k]
      rw [e, ← level]
      exact .refused (.nil _) (Progress.run_nil _) (by rwa [level]) k
    · cases P with
      | done T =>
        obtain ⟨run, level⟩ := Progress.Leads.single k
        have met := Outcome.met (.cons (.nil _)) run (by rwa [level])
        rw [level] at met
        rw [e]
        exact met
      | due d =>
        have shorter := Scanner.rest_scan_lt (Due.isStop_of_next? k)
        have rest := ih _ shorter (h.advance e) rfl
        rw [e]
        exact Outcome.cons within k rfl rest

end Parser

/-! ### A whole text -/

/-- **What is read of a text by a run, and what comes next, is what `tokenize` gives.** -/
theorem Scanner.Reads.tokenize_cases {source : String} {us : List Token} {last : Scanner}
    {P Q : Progress .formula} (h : (Scanner.ofString source).Reads us last)
    (run : P.run us = some Q) :
    last.scan.1.kind = .endOfText ∧ tokenize source = us ∨
      last.scan.1.kind ≠ .endOfText ∧ ∃ rest, tokenize source = us ++ last.scan.1 :: rest := by
  have taken : tokenize source = us ++ last.drain.1 := h.drain_fst (Progress.isStop_of_run run)
  rcases last.drain_fst_eq_nil_or_cons with ⟨ends, e⟩ | ⟨goesOn, rest, e⟩
  · exact .inl ⟨ends, by rw [taken, e, List.append_nil]⟩
  · exact .inr ⟨goesOn, rest, by rw [taken, e]⟩

/-- Reads a formula and then the end of the text, and leaves the parser as it is where that
ends. -/
def Parser.formulaAndEnd (p : Parser) : Except ParseError Formula × Parser :=
  match p.formula with
  | (.error e, later) => (.error e, later)
  | (.ok F, later) =>
    match later.expectEnd with
    | (.error e, last) => (.error e, last)
    | (.ok (), last) => (.ok F, last)

/-- **A text is a formula and then its end.** -/
theorem Formula.parse_eq (source : String) (bound : Nat) :
    Formula.parse source bound = (Parser.ofString source bound).formulaAndEnd.1 := by
  unfold Formula.parse Parser.formulaAndEnd
  rcases hr : (Parser.ofString source bound).formula with ⟨_ | F, later⟩
  · rfl
  · rcases he : later.expectEnd with ⟨_ | _, last⟩ <;> simp only [he] <;> rfl

theorem Parser.expectEnd_of_endOfText {p : Parser} (h : p.scanner.scan.1.kind = .endOfText) :
    p.expectEnd = (.ok (), p.next.2) :=
  if_pos h

theorem Parser.expectEnd_of_ne {p : Parser} (h : p.scanner.scan.1.kind ≠ .endOfText) :
    p.expectEnd =
      (.error ⟨.trailingInput p.scanner.scan.1.kind p.scanner.scan.1.text,
        some p.scanner.scan.2.offset⟩, p.next.2) :=
  if_neg h

/-- Whatever comes next, expecting a token is scanning one. -/
theorem Parser.expect_snd (p : Parser) (kind : TokenKind) (expected : String) :
    (p.expect kind expected).2 = p.next.2 := by
  unfold expect
  simp only
  split <;> rfl

/-- Whatever comes next, asking for the end of the text is scanning one token. -/
theorem Parser.expectEnd_snd (p : Parser) : p.expectEnd.2 = p.next.2 := by
  by_cases ends : p.scanner.scan.1.kind = .endOfText
  · rw [expectEnd_of_endOfText ends]
  · rw [expectEnd_of_ne ends]

/-- Behind a formula the end of the text is asked for, and behind an error nothing. -/
theorem Parser.formulaAndEnd_snd (p : Parser) :
    p.formulaAndEnd.2 =
      match p.formula with
      | (.error _, later) => later
      | (.ok _, later) => later.next.2 := by
  rw [formulaAndEnd]
  rcases p.formula with ⟨e | F, later⟩
  · rfl
  · have last := expectEnd_snd later
    rcases hl : later.expectEnd with ⟨e | _, end_⟩ <;> rw [hl] at last <;> simp only [hl] <;>
      exact last

/-- How the reading of a text as one formula ends. -/
inductive Formula.Outcome (source : String) (bound : Nat) : Except ParseError Formula → Prop
  | accepted {us : List Token} {last : Scanner} {F : Formula}
      (reads : (Scanner.ofString source).Reads us last)
      (run : Progress.start.run us = some (.done F))
      (allowed : Progress.start.peak us ≤ bound)
      (ends : last.scan.1.kind = .endOfText) : Outcome source bound (.ok F)
  | trailing {us : List Token} {last : Scanner} {F : Formula}
      (reads : (Scanner.ofString source).Reads us last)
      (run : Progress.start.run us = some (.done F))
      (goesOn : last.scan.1.kind ≠ .endOfText) :
      Outcome source bound
        (.error ⟨.trailingInput last.scan.1.kind last.scan.1.text, some last.scan.2.offset⟩)
  | refused {us : List Token} {last : Scanner} {d : Due .formula}
      (reads : (Scanner.ofString source).Reads us last)
      (run : Progress.start.run us = some (.due d))
      (none : d.next? last.scan.1 = none) :
      Outcome source bound
        (.error ⟨.ofToken d.wording last.scan.1, some last.scan.2.offset⟩)
  | tooDeep {us : List Token} {last : Scanner} {d : Due .formula}
      (reads : (Scanner.ofString source).Reads us last)
      (run : Progress.start.run us = some (.due d))
      (beyond : bound < d.reach last.scan.1.kind) :
      Outcome source bound (.error ⟨.nestingTooDeep bound, some last.scan.2.offset⟩)

/-- **A text is accepted, goes on behind a formula, has a token refused or nests too deep.** -/
theorem Formula.outcome_parse (source : String) (bound : Nat) :
    Formula.Outcome source bound (Formula.parse source bound) := by
  rw [Formula.parse_eq, Parser.formulaAndEnd]
  obtain ⟨r, hr⟩ : ∃ r : Except ParseError (Goal.Tree .formula) × Parser,
      (Parser.ofString source bound).formula = r := ⟨_, rfl⟩
  have read : Parser.Outcome (.formula (.outermost 1)) (Parser.ofString source bound) r :=
    hr ▸ Parser.outcome_read (Parser.standsAt_ofString source bound)
  rw [hr]
  cases read with
  | @met us last F reads run allowed =>
    by_cases ends : last.scan.1.kind = .endOfText
    · simp only [Parser.expectEnd_of_endOfText (p := Parser.left _ last _) ends]
      exact .accepted reads run allowed ends
    · simp only [Parser.expectEnd_of_ne (p := Parser.left _ last _) ends]
      exact .trailing reads run ends
  | refused reads run allowed none => exact .refused reads run none
  | tooDeep reads run allowed beyond => exact .tooDeep reads run beyond

/-- The text nests no deeper than the bound, as far as it is read. -/
def Formula.FitsBound (source : String) (bound : Nat) : Prop :=
  ∀ position, Formula.parse source bound ≠ .error ⟨.nestingTooDeep bound, position⟩

end Typographical
