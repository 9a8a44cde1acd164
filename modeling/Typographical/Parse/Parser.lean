/-
# Reading formulas

A parser is a scanner with a bound on how deep constructs may nest.  A bound
below zero leaves as little room as zero, where already the first level is too
deep, and is named as it was given in what is said about it.  Each of the
parser's readings takes in exactly the tokens of what it is after and looks at nothing
behind them; one that fails stops at the token at fault, and the parser may be
used again from there.

A construct is read one level deeper than what it stands in (`Parser.nested`).  The
level is entered behind its first token and left behind its last, or where
anything in it is refused.  `Parser.advance` puts one token to a reading and enters
and leaves the levels that begin and end with it.  `Parser.read` repeats that, and
ends because a token that is taken shortens what is left to read.  `Formula.parse`
reads a text that must be one formula and nothing else.
-/

import Typographical.Parse.Due
import Typographical.Parse.Error
import Typographical.Token.Scanner

namespace Typographical

/-- A scanner, the bound on the levels, the levels open at the moment and the deepest level that
was entered so far. -/
structure Parser where
  scanner : Scanner
  bound : Int
  depth : Nat
  deepest : Nat
deriving DecidableEq, Repr

namespace Parser

/-- The parser at the start of a text. -/
def ofString (source : String) (bound : Int) : Parser :=
  ⟨Scanner.ofString source, bound, 0, 0⟩

/-- A fault at the token that was read last. -/
def errorAt (p : Parser) (fault : ParseFault) : ParseError :=
  ⟨fault, some p.scanner.offset⟩

/-- Reads one token, whatever it is. -/
def next (p : Parser) : Token × Parser :=
  let (token, scanner) := p.scanner.scan
  (token, { p with scanner })

/-- Reads one token, which must be of the given kind, and gives its text.  A message names the
kind by the given words. -/
def expect (p : Parser) (kind : TokenKind) (expected : String) :
    Except ParseError String × Parser :=
  let (token, p) := p.next
  if token.kind = kind then (.ok token.text, p)
  else (.error (p.errorAt (.ofToken expected token)), p)

/-- Reads one token, which must be the end of the text. -/
def expectEnd (p : Parser) : Except ParseError Unit × Parser :=
  let (token, p) := p.next
  if token.kind = .endOfText then (.ok (), p)
  else (.error (p.errorAt (.trailingInput token.kind token.text)), p)

/-- Enters the next level. -/
def enter (p : Parser) : Parser :=
  { p with depth := p.depth + 1, deepest := max p.deepest (p.depth + 1) }

/-- Leaves the level that was entered last. -/
def leave (p : Parser) : Parser :=
  { p with depth := p.depth - 1 }

/-- Leaves so many levels, one after the other. -/
def leaveTimes : Nat → Parser → Parser
  | 0, p => p
  | n + 1, p => (leaveTimes n p).leave

/-- Does something so many levels deeper.  The levels are entered one after the other, up to the
first that is beyond the bound, and each of them is left again if what is done there fails. -/
def nested {α : Type} (body : Parser → Except ParseError α × Parser) :
    Nat → Parser → Except ParseError α × Parser
  | 0, p => body p
  | n + 1, p =>
    let inside := p.enter
    if inside.bound < inside.depth then
      (.error (inside.errorAt (.nestingTooDeep inside.bound)), inside.leave)
    else
      match nested body n inside with
      | (.error e, later) => (.error e, later.leave)
      | (.ok a, later) => (.ok a, later)

/-- Puts a token that has been scanned to a reading, on the levels that the token opens.  If it may
come next, the levels that it closes are left. -/
def put {g : Goal} (c : Due g) (t : Token) : Parser → Except ParseError (Progress g) × Parser :=
  nested (fun inside =>
    match c.next? t with
    | none => (.error (inside.errorAt (.ofToken c.wording t)), inside)
    | some progress => (.ok progress, leaveTimes (c.closes t.kind) inside)) (c.opens t.kind)

/-- Puts a token that has been scanned to a reading.  Behind a refusal the levels of the constructs
that wait are left as well. -/
def take {g : Goal} (c : Due g) (t : Token) (p : Parser) :
    Except ParseError (Progress g) × Parser :=
  match put c t p with
  | (.error e, later) => (.error e, leaveTimes c.depth later)
  | (.ok progress, later) => (.ok progress, later)

/-- Puts the next token to a reading. -/
def advance {g : Goal} (c : Due g) (p : Parser) : Except ParseError (Progress g) × Parser :=
  let (token, p) := p.next
  p.take c token

/-- What is done on further levels succeeds only there, where the scanner is still the same. -/
theorem exists_of_nested_eq_ok {α : Type} {body : Parser → Except ParseError α × Parser} {n : Nat}
    {p later : Parser} {a : α} (h : nested body n p = (.ok a, later)) :
    ∃ inside : Parser, inside.scanner = p.scanner ∧ body inside = (.ok a, later) := by
  induction n generalizing p with
  | zero => exact ⟨p, rfl, h⟩
  | succ n ih =>
    rw [nested] at h
    split at h
    · cases h
    · rcases hn : nested body n p.enter with ⟨e | b, q⟩ <;> rw [hn] at h <;> cases h
      exact ih (p := p.enter) hn

/-- Leaving levels leaves the scanner where it is. -/
@[simp] theorem scanner_leaveTimes (n : Nat) (p : Parser) :
    (leaveTimes n p).scanner = p.scanner := by
  induction n with
  | zero => rfl
  | succ n ih => exact ih

/-- **A token that is taken may come next,** and is taken where it was scanned. -/
theorem next?_of_take {g : Goal} {c : Due g} {t : Token} {p later : Parser} {P : Progress g}
    (h : p.take c t = (.ok P, later)) : c.next? t = some P ∧ later.scanner = p.scanner := by
  unfold take at h
  split at h
  · cases h
  · next P' q taken =>
    cases h
    obtain ⟨inside, place, h⟩ := exists_of_nested_eq_ok taken
    split at h
    · cases h
    · next allowed =>
      cases h
      exact ⟨allowed, (scanner_leaveTimes _ _).trans place⟩

/-- **Every token that is taken brings the end nearer.** -/
theorem rest_advance_lt {g : Goal} {c : Due g} {p later : Parser} {progress : Progress g}
    (h : p.advance c = (.ok progress, later)) :
    later.scanner.rest.length < p.scanner.rest.length := by
  obtain ⟨allowed, place⟩ := next?_of_take h
  rw [place]
  exact Scanner.rest_scan_lt (Due.isStop_of_next? allowed)

/-- Reads on until the goal is met or a token is refused. -/
def read {g : Goal} (c : Due g) (p : Parser) : Except ParseError g.Tree × Parser :=
  match _taken : p.advance c with
  | (.error e, later) => (.error e, later)
  | (.ok (.done tree), later) => (.ok tree, later)
  | (.ok (.due next), later) => read next later
termination_by p.scanner.rest.length
decreasing_by exact rest_advance_lt _taken

/-- Reads a formula. -/
def formula (p : Parser) : Except ParseError Formula × Parser :=
  p.read (.formula (.outermost 1))

/-- Reads a term. -/
def term (p : Parser) : Except ParseError Term × Parser :=
  p.read (.term (.outermost 1))

/-- Reads an equation. -/
def atom (p : Parser) : Except ParseError Formula × Parser :=
  p.read (.term (.atomLeft (.outermost 0)))

/-- Reads a compound whose opening angle has been read. -/
def compound (p : Parser) : Except ParseError Formula × Parser :=
  p.read (.formula (.compoundLeft (.outermost 0)))

/-- Reads a quantification whose quantifier has been read. -/
def quantification (p : Parser) (q : Quantifier) : Except ParseError Formula × Parser :=
  p.read (.boundVariable q (.outermost 0))

end Parser

/-- Reads a text as exactly one formula that nests no deeper than the bound. -/
def Formula.parse (source : String) (bound : Nat) : Except ParseError Formula := do
  let (formula, p) := (Parser.ofString source bound).formula
  let F ← formula
  p.expectEnd.1
  return F

/-- Successors over zero add up to one numeral, however they are spaced. -/
example : Formula.parse "S SS0=a" 4 = .ok (.atom (.numeral 3) (.var ⟨"a"⟩)) := by cbv

/-- A text that breaks off is refused where it ends. -/
example : Formula.parse "0=" 4 = .error ⟨.unexpectedEnd "term", some 2⟩ := by cbv

/-- A negative bound is named as it is. -/
example : ((Parser.ofString "a:0=0" (-2)).quantification .forAll).1 =
    .error ⟨.nestingTooDeep (-2), some 2⟩ := by cbv

/-- Depth is asked about before the token: this text both nests too deep and breaks off. -/
example : Formula.parse "0=" 1 = .error ⟨.nestingTooDeep 1, some 0⟩ := by cbv

end Typographical
