/-
# What one call does to a parser

A parser is used by calls: to take the next token whatever it is, to expect one
token or the end, or to read a formula, a term or a part of a formula.  Reading an
equation begins with a token that has been scanned already, which
`Parser.readFrom` puts to the reading before it scans; it is the equation from where
that token was scanned (`Parser.atomFrom_eq_atom`).  Every other reading scans its
first token itself (`Parser.read_eq_readFrom`).

Every call leaves as many levels open as it found (`Parser.Call.depth_run`).
`Parser.Call.Effect` is what else holds of every call that finds none open, whether it
succeeds or fails.  Nothing goes back, and the deepest level is beyond the bound
exactly by a call that is refused for that.  An error is placed where the scanner
found its last token, and what it quotes stands there in the text.
-/

import Typographical.Proofs.Part

namespace Typographical

/-! ### Errors and places -/

/-- What a fault quotes of the text. -/
def ParseFault.quoted? : ParseFault → Option String
  | unexpectedToken _ _ lexeme => some lexeme
  | trailingInput _ lexeme => some lexeme
  | illegalCharacter character => some character
  | unexpectedEnd _ | nestingTooDeep _ | other _ => none

/-- An error that says that constructs nest too deep. -/
def ParseError.IsTooDeep (e : ParseError) : Prop :=
  ∃ bound, e.fault = .nestingTooDeep bound

/-- An error is at an offset of a text: what it quotes stands there, and a text that ends too early
ends there. -/
structure ParseError.At (e : ParseError) (source : String) (offset : Nat) : Prop where
  position_eq : e.position = some ↑offset
  quoted : ∀ s, e.fault.quoted? = some s → Text.slice source offset s.length = s
  ends : ∀ expected, e.fault = .unexpectedEnd expected → offset = source.length

theorem ParseFault.ofToken_cases (wording : String) (t : Token) :
    t.kind = .endOfText ∧ ofToken wording t = .unexpectedEnd wording ∨
      t.kind ≠ .endOfText ∧ ofToken wording t = .illegalCharacter t.text ∨
      t.kind ≠ .endOfText ∧ ofToken wording t = .unexpectedToken wording t.kind t.text := by
  obtain ⟨kind, text⟩ := t
  cases kind <;> simp [ofToken]

theorem ParseFault.not_isTooDeep_ofToken (wording : String) (t : Token) (position : Option Int) :
    ¬ParseError.IsTooDeep ⟨ofToken wording t, position⟩ := by
  rintro ⟨bound, e⟩
  rcases ofToken_cases wording t with ⟨-, h⟩ | ⟨-, h⟩ | ⟨-, h⟩ <;> cases h.symm.trans e

/-- **A token that is refused is at the offset where it was found.** -/
theorem Scanner.StandsIn.at_ofToken {s : Scanner} {source : String} (h : s.StandsIn source)
    (wording : String) :
    ParseError.At ⟨.ofToken wording s.scan.1, some ↑s.scan.2.offset⟩ source s.scan.2.offset where
  position_eq := rfl
  quoted := by
    have quoted : ∀ text, some s.scan.1.text = some text →
        Text.slice source s.scan.2.offset text.length = text := by
      rintro _ ⟨⟩
      exact h.slice_scan
    rcases ParseFault.ofToken_cases wording s.scan.1 with ⟨-, e⟩ | ⟨-, e⟩ | ⟨-, e⟩ <;> rw [e]
    · nofun
    · exact quoted
    · exact quoted
  ends := by
    rcases ParseFault.ofToken_cases wording s.scan.1 with ⟨ends, e⟩ | ⟨-, e⟩ | ⟨-, e⟩ <;> rw [e]
    · exact fun _ _ => h.offset_scan_of_endOfText ends
    · nofun
    · nofun

namespace Parser

variable {g : Goal}

/-! ### Reading from a token that has been scanned -/

/-- Reads on from a token that has been scanned. -/
def readFrom (c : Due g) (t : Token) (p : Parser) : Except ParseError g.Tree × Parser :=
  match p.take c t with
  | (.error e, later) => (.error e, later)
  | (.ok (.done tree), later) => (.ok tree, later)
  | (.ok (.due next), later) => later.read next

/-- **A reading scans its first token and reads on from it.** -/
theorem read_eq_readFrom (c : Due g) (p : Parser) : p.read c = p.next.2.readFrom c p.next.1 := by
  rw [read_eq]
  rfl

/-- **Reading on from a token is reading from where the token was scanned.** -/
theorem readFrom_eq_read (c : Due g) {t : Token} {p : Parser} {s : Scanner}
    (scanned : s.scan = (t, p.scanner)) :
    p.readFrom c t = ({ p with scanner := s } : Parser).read c := by
  rw [read_eq_readFrom]
  simp only [Parser.next, scanned]

/-- Reads an equation whose first token has been scanned. -/
def atomFrom (p : Parser) (t : Token) : Except ParseError Formula × Parser :=
  p.readFrom (.term (.atomLeft (.outermost 0))) t

/-- **An equation whose first token has been scanned is the equation from there.** -/
theorem atomFrom_eq_atom {t : Token} {p : Parser} {s : Scanner}
    (scanned : s.scan = (t, p.scanner)) :
    p.atomFrom t = ({ p with scanner := s } : Parser).atom :=
  readFrom_eq_read _ scanned

/-- Reading on from a token ends at the depth it began at, too. -/
theorem depth_readFrom {c : Due g} {p : Parser} (level : c.HasLevel) (opened : c.depth ≤ p.depth)
    (t : Token) : (p.readFrom c t).2.depth + c.depth = p.depth := by
  unfold readFrom
  rcases taken : p.take c t with ⟨e | next | T, later⟩
  · exact depth_take level opened taken
  · have step : later.depth + c.depth = p.depth + next.depth := depth_take level opened taken
    have below := (Due.depth_add_closes level (next?_of_take taken).1).2
    have rest := depth_read (c := next) (p := later) below (by omega)
    simp only
    omega
  · exact depth_take level opened taken

/-- The token is the one that the scanner of the parser read last. -/
def JustScanned (p : Parser) (source : String) (t : Token) : Prop :=
  ∃ s : Scanner, s.StandsIn source ∧ s.scan = (t, p.scanner)

/-! ### Calls -/

/-- What may be asked of a parser. -/
inductive Call
  | next
  | expect (kind : TokenKind) (expected : String)
  | expectEnd
  | formula
  | term
  | compound
  | quantification (quantifier : Quantifier)
  | atom (first : Token)
deriving Repr

/-- The error that a call raises, if it does, and the parser it leaves. -/
abbrev Answer := Option ParseError × Parser

/-- A result, told by the error alone. -/
def answer {α : Type} : Except ParseError α × Parser → Answer
  | (.error e, p) => (some e, p)
  | (.ok _, p) => (none, p)

/-- What a call does. -/
def Call.run (p : Parser) : Call → Answer
  | next => (none, p.next.2)
  | expect kind expected => answer (p.expect kind expected)
  | expectEnd => answer p.expectEnd
  | formula => answer p.formula
  | term => answer p.term
  | compound => answer p.compound
  | quantification q => answer (p.quantification q)
  | atom t => answer (p.atomFrom t)

/-- An equation is read from the token that was scanned last; the other calls are always allowed. -/
def Call.Allowed (p : Parser) (source : String) : Call → Prop
  | atom t => p.JustScanned source t
  | _ => True

/-- **A call leaves as many levels open as it found,** whether it succeeds or fails. -/
theorem Call.depth_run (c : Call) (p : Parser) : (c.run p).2.depth = p.depth := by
  have told {α : Type} (r : Except ParseError α × Parser) :
      (answer r).2.depth = r.2.depth := by
    rcases r with ⟨e | a, q⟩ <;> rfl
  cases c with
  | next => rfl
  | expect kind expected =>
    rw [run, told, expect_snd]
    rfl
  | expectEnd =>
    rw [run, told, expectEnd_snd]
    rfl
  | formula => exact (told _).trans (Part.formula.depth_read p)
  | term => exact (told _).trans (Part.term.depth_read p)
  | compound => exact (told _).trans (Part.compound.depth_read p)
  | quantification q => exact (told _).trans ((Part.quantification q).depth_read p)
  | atom t =>
    rw [run, told]
    exact depth_readFrom (c := .term (.atomLeft (.outermost 0))) (Nat.le_refl 1) (Nat.zero_le _) t

/-- What else holds of a call, whatever comes of it. -/
structure Call.Effect (source : String) (p : Parser) (a : Answer) : Prop where
  bound_eq : a.2.bound = p.bound
  standsIn : a.2.scanner.StandsIn source
  offset_le : p.scanner.offset ≤ a.2.scanner.offset
  pos_le : p.scanner.pos ≤ a.2.scanner.pos
  /-- The deepest level the call enters is beyond the bound exactly when that is its error. -/
  deepest_eq : ∃ level, a.2.deepest = max p.deepest level ∧ level ≤ p.deepestAllowed + 1 ∧
    (level = p.deepestAllowed + 1 ↔ ∃ e, a.1 = some e ∧ e.IsTooDeep)
  error_at : ∀ e, a.1 = some e → e.At source a.2.scanner.offset

variable {source : String} {p : Parser}

/-- The effect of a call that ends behind some scans. -/
theorem Call.Effect.of_reads {e? : Option ParseError} {vs : List Token} {last : Scanner}
    {level : Nat} (hp : p.scanner.StandsIn source) (reads : p.scanner.Reads vs last)
    (le : level ≤ p.deepestAllowed + 1)
    (tooDeep : level = p.deepestAllowed + 1 ↔ ∃ e, e? = some e ∧ e.IsTooDeep)
    (error_at : ∀ e, e? = some e → e.At source last.offset) :
    Effect source p (e?, p.left last level) where
  bound_eq := rfl
  standsIn := reads.standsIn hp
  offset_le := (reads.offset_le_and_pos_le hp.offset_le).1
  pos_le := (reads.offset_le_and_pos_le hp.offset_le).2
  deepest_eq := ⟨level, rfl, le, tooDeep⟩
  error_at := error_at

/-! ### One token -/

/-- The effect of a call that scans one token and no more. -/
theorem Call.Effect.of_scan {e? : Option ParseError} (hp : p.scanner.StandsIn source)
    (closed : p.depth = 0)
    (shallow : ∀ e, e? = some e → ¬e.IsTooDeep)
    (error_at : ∀ e, e? = some e → e.At source p.scanner.scan.2.offset) :
    Effect source p (e?, p.next.2) := by
  have left : p.next.2 = p.left p.scanner.scan.2 0 := by
    obtain ⟨scanner, bound, depth, deepest⟩ := p
    cases closed
    simp [Parser.next, Parser.left]
  rw [left]
  refine .of_reads hp (.cons (.nil _)) (Nat.zero_le _) ⟨fun beyond => ?_, ?_⟩ error_at
  · exact absurd beyond (Nat.succ_ne_zero _).symm
  · rintro ⟨e, he, tooDeep⟩
    exact absurd tooDeep (shallow e he)

theorem Call.effect_expect (hp : p.scanner.StandsIn source) (closed : p.depth = 0)
    (kind : TokenKind) (expected : String) :
    Call.Effect source p (answer (p.expect kind expected)) := by
  by_cases met : p.scanner.scan.1.kind = kind
  · have result : p.expect kind expected = (.ok p.scanner.scan.1.text, p.next.2) := if_pos met
    rw [result]
    exact .of_scan hp closed nofun nofun
  · have result : p.expect kind expected =
        (.error ⟨.ofToken expected p.scanner.scan.1, some p.scanner.scan.2.offset⟩, p.next.2) :=
      if_neg met
    rw [result]
    refine .of_scan hp closed ?_ ?_
    · rintro _ ⟨⟩
      exact ParseFault.not_isTooDeep_ofToken _ _ _
    · rintro _ ⟨⟩
      exact hp.at_ofToken expected

theorem Call.effect_expectEnd (hp : p.scanner.StandsIn source) (closed : p.depth = 0) :
    Call.Effect source p (answer p.expectEnd) := by
  by_cases ends : p.scanner.scan.1.kind = .endOfText
  · rw [expectEnd_of_endOfText ends]
    exact .of_scan hp closed nofun nofun
  · rw [expectEnd_of_ne ends]
    refine .of_scan hp closed ?_ ?_
    · rintro _ ⟨⟩ ⟨bound, e⟩
      cases e
    · rintro _ ⟨⟩
      refine ⟨rfl, ?_, nofun⟩
      rintro _ ⟨⟩
      exact hp.slice_scan

/-! ### A reading -/

/-- **The effect of reading on from a token that has been scanned.** -/
theorem Call.effect_readFrom {c : Due g} {t : Token} (stands : p.StandsAt c)
    (h : p.JustScanned source t) : Call.Effect source p (answer (p.readFrom c t)) := by
  obtain ⟨s, hs, scanned⟩ := h
  have hp : p.scanner.StandsIn source := by
    have behind := hs.scan
    rwa [scanned] at behind
  have before : ({ p with scanner := s } : Parser).StandsAt c := { stands with }
  have outcome := outcome_read before
  rw [← readFrom_eq_read c scanned] at outcome
  -- where a token ends the reading, the parser is left behind that token
  have behind {us : List Token} {last : Scanner} (reads : s.Reads us last) :
      last.StandsIn source ∧ ∃ vs, p.scanner.Reads vs last.scan.2 := by
    refine ⟨reads.standsIn hs, ?_⟩
    obtain ⟨vs, h⟩ := reads.exists_reads_scan
    rw [scanned] at h
    exact ⟨vs, h⟩
  generalize p.readFrom c t = r at outcome
  cases outcome with
  | @met us last T reads run allowed =>
    cases reads with
    | nil => cases run
    | cons h =>
      rw [scanned] at h
      refine .of_reads hp h (Nat.le_succ_of_le allowed) ⟨fun e => ?_, nofun⟩ nofun
      exact absurd allowed (by rw [e]; exact Nat.not_succ_le_self _)
  | @refused us last d reads run allowed none =>
    obtain ⟨inText, vs, h⟩ := behind reads
    refine .of_reads hp h (Nat.le_succ_of_le allowed) ⟨fun e => ?_, ?_⟩ ?_
    · exact absurd allowed (by rw [e]; exact Nat.not_succ_le_self _)
    · rintro ⟨_, ⟨⟩, tooDeep⟩
      exact absurd tooDeep (ParseFault.not_isTooDeep_ofToken _ _ _)
    · rintro _ ⟨⟩
      exact inText.at_ofToken _
  | @tooDeep us last d reads run allowed beyond =>
    obtain ⟨inText, vs, h⟩ := behind reads
    refine .of_reads hp h (Nat.le_refl _) ⟨fun _ => ⟨_, rfl, _, rfl⟩, fun _ => rfl⟩ ?_
    rintro _ ⟨⟩
    exact ⟨rfl, nofun, nofun⟩

/-- The effect of a reading that scans its first token itself. -/
theorem Call.effect_read {c : Due g} (stands : p.StandsAt c) (hp : p.scanner.StandsIn source) :
    Call.Effect source p (answer (p.read c)) := by
  have scanned : p.next.2.JustScanned source p.next.1 := ⟨p.scanner, hp, rfl⟩
  have behind : p.next.2.StandsAt c := { stands with }
  have effect := Call.effect_readFrom behind scanned
  rw [← read_eq_readFrom] at effect
  have offset : p.scanner.offset ≤ p.next.2.scanner.offset :=
    Nat.le_trans hp.offset_le p.scanner.pos_le_offset_scan
  have pos : p.scanner.pos ≤ p.next.2.scanner.pos :=
    Nat.le_trans p.scanner.pos_le_offset_scan p.scanner.offset_scan_le_pos_scan
  exact { effect with
    offset_le := Nat.le_trans offset effect.offset_le
    pos_le := Nat.le_trans pos effect.pos_le }

/-! ### Any call -/

/-- **The effect of a call.** -/
theorem Call.effect (c : Call) (hp : p.scanner.StandsIn source) (closed : p.depth = 0)
    (allowed : c.Allowed p source) : Call.Effect source p (c.run p) := by
  cases c with
  | next => exact .of_scan hp closed nofun nofun
  | expect kind expected => exact effect_expect hp closed kind expected
  | expectEnd => exact effect_expectEnd hp closed
  | formula => exact effect_read (Part.formula.standsAt closed) hp
  | term => exact effect_read (Part.term.standsAt closed) hp
  | compound => exact effect_read (Part.compound.standsAt closed) hp
  | quantification q => exact effect_read ((Part.quantification q).standsAt closed) hp
  | atom t =>
    have stands : p.StandsAt (.term (.atomLeft (.outermost 0))) :=
      .of_closed (Nat.le_refl 1) rfl closed
    exact effect_readFrom stands allowed

end Parser
end Typographical
