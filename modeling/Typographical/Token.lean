/-
# Tokens

A formula is written in seventeen kinds of symbols.  Fifteen of them are single
characters, some with look-alikes that a keyboard has: `*` and `.` for `·`, `A`
for `∀`, `E` for `∃`, `^` for `∧`, `V` for `∨`.  The other two are runs: a
variable is one of the letters `a` to `e` with the primes behind it, a successor
is a run of the letter `S`.

Two further kinds mark where reading stops, at the end of the text or at a
character that belongs to no symbol; no text is taken in for them.
-/

namespace Typographical

/-- What a token is, whichever of its spellings was used. -/
inductive TokenKind
  | illegal
  | endOfText
  | zero
  | successor
  | variableName
  | openParen
  | closeParen
  | plus
  | multiply
  | equals
  | negation
  | openAngle
  | closeAngle
  | thereExists
  | forAll
  | colon
  | and
  | or
  | ifThen
deriving DecidableEq, Repr, Inhabited

namespace TokenKind

/-- The kinds, those that stop reading first. -/
def all : List TokenKind :=
  [illegal, endOfText, zero, successor, variableName, openParen, closeParen, plus, multiply,
    equals, negation, openAngle, closeAngle, thereExists, forAll, colon, and, or, ifThen]

/-- The name of a kind in messages. -/
def label : TokenKind → String
  | illegal => "ILLEGAL"
  | endOfText => "EOF"
  | zero => "ZERO"
  | successor => "SUCCESSOR"
  | variableName => "VARIABLE"
  | openParen => "OPEN_PAREN"
  | closeParen => "CLOSE_PAREN"
  | plus => "PLUS"
  | multiply => "MULTIPLY"
  | equals => "EQUALS"
  | negation => "NEGATION"
  | openAngle => "OPEN_ANGLE"
  | closeAngle => "CLOSE_ANGLE"
  | thereExists => "THERE_EXISTS"
  | forAll => "FOR_ALL"
  | colon => "COLON"
  | and => "AND"
  | or => "OR"
  | ifThen => "IF_THEN"

/-- The kind of a given name. -/
def ofLabel? (s : String) : Option TokenKind :=
  all.find? (label · == s)

/-- The kind of a symbol that is a single character. -/
def ofChar? : Char → Option TokenKind
  | '0' => some zero
  | '(' => some openParen
  | ')' => some closeParen
  | '+' => some plus
  | '*' | '.' | '·' => some multiply
  | '=' => some equals
  | '~' => some negation
  | '<' => some openAngle
  | '>' => some closeAngle
  | 'E' | '∃' => some thereExists
  | 'A' | '∀' => some forAll
  | ':' => some colon
  | '^' | '∧' => some and
  | 'V' | '∨' => some or
  | '⊃' => some ifThen
  | _ => none

/-- Whether reading stops at a token of this kind. -/
def isStop : TokenKind → Bool
  | illegal | endOfText => true
  | _ => false

/-- **No kind is missing from the list.** -/
theorem mem_all (k : TokenKind) : k ∈ all := by
  cases k <;> decide

/-- **Single characters spell symbols only.** -/
theorem isStop_of_ofChar? {c : Char} {k : TokenKind} (h : ofChar? c = some k) :
    k.isStop = false := by
  unfold ofChar? at h
  split at h <;> first | (cases h; rfl) | contradiction

example : ofLabel? "IF_THEN" = some ifThen := by decide

end TokenKind

/-- A kind with the text that was read for it: nothing at the end of the text, the character at
fault for an illegal one. -/
structure Token where
  kind : TokenKind
  text : String
deriving DecidableEq, Repr, Inhabited

/-- How many characters reading the token takes in. -/
def Token.width (t : Token) : Nat :=
  if t.kind.isStop then 0 else t.text.length

/-- A letter that begins a variable. -/
def isVariableLetter (c : Char) : Bool :=
  c == 'a' || c == 'b' || c == 'c' || c == 'd' || c == 'e'

/-- The mark that tells variables of one letter apart. -/
def isPrime (c : Char) : Bool :=
  c == '\x27'

/-- The letter that successors are written with. -/
def isSuccessorLetter (c : Char) : Bool :=
  c == 'S'

end Typographical
