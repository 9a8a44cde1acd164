/-
# What is due next

Between two tokens a reader knows one thing: what is due next, and the contexts
that wait for it.  `Due.next?` says what a token makes of that.  A token may
begin what is due, continue it or complete it; completing a part fills the hole
of its context, which may complete the construct around it in turn.

One token is all that is looked at, and no token is looked at twice.  How deep
the constructs nest plays no part here.  A construct opens a level when it begins
and closes it when it is complete; `Due.opens` and `Due.closes` count the levels
for each token, and whether one is too deep is for the reader to say.
-/

import Typographical.Parse.Context
import Typographical.Token

namespace Typographical

namespace TokenKind

/-- The connective a token of this kind is. -/
def connective? : TokenKind → Option Connective
  | .and => some .and
  | .or => some .or
  | .ifThen => some .implies
  | _ => none

/-- The operation a token of this kind is. -/
def operation? : TokenKind → Option Operation
  | .plus => some .sum
  | .multiply => some .product
  | _ => none

/-- Whether a token of this kind begins a formula that is no equation. -/
def beginsConstruct : TokenKind → Bool
  | .negation | .openAngle | .forAll | .thereExists => true
  | _ => false

end TokenKind

/-- What is due next in a reading, with what waits for it. -/
inductive Due : Goal → Type
  | formula (around : FormulaContext) : Due .formula
  | connective (left : Formula) (around : FormulaContext) : Due .formula
  | closeAngle (left : Formula) (connective : Connective) (right : Formula)
      (around : FormulaContext) : Due .formula
  | boundVariable (quantifier : Quantifier) (around : FormulaContext) : Due .formula
  | colon (quantifier : Quantifier) (bound : Variable) (around : FormulaContext) : Due .formula
  | equals (left : Term) (around : FormulaContext) : Due .formula
  | term {g : Goal} (around : TermContext g) : Due g
  | operation {g : Goal} (left : Term) (around : TermContext g) : Due g
  | closeParen {g : Goal} (left : Term) (op : Operation) (right : Term)
      (around : TermContext g) : Due g

/-- Where a reading stands after a token: something is due, or the goal is met. -/
inductive Progress (g : Goal)
  | due (next : Due g)
  | done (tree : g.Tree)

/-- Puts a formula into the hole of its context. -/
def FormulaContext.fill : FormulaContext → Formula → Progress .formula
  | outermost _, F => .done F
  | negation K, F => K.fill (.negation F)
  | compoundLeft K, F => .due (.connective F K)
  | compoundRight left c K, F => .due (.closeAngle left c F K)
  | quantified q v K, F => K.fill (.quantification q v F)

/-- Puts a term into the hole of its context. -/
def TermContext.fill {g : Goal} : TermContext g → Term → Progress g
  | outermost _, t => .done t
  | atomLeft K, t => .due (.equals t K)
  | atomRight left K, t => K.fill (.atom left t)
  | successor q K, t => K.fill (t.addSuccessors q)
  | operandLeft K, t => .due (.operation t K)
  | operandRight left op K, t => .due (.closeParen left op t K)

/-- What a token makes of a term that is due. -/
def TermContext.next? {g : Goal} (K : TermContext g) (t : Token) : Option (Progress g) :=
  match t.kind with
  | .zero => some (K.fill (.numeral 0))
  | .variableName => some (K.fill (.var ⟨t.text⟩))
  | .successor => some (.due (.term (.successor t.text.length K)))
  | .openParen => some (.due (.term (.operandLeft K)))
  | _ => none

namespace Due

/-- What a token makes of a reading, if it may come next. -/
def next? {g : Goal} : Due g → Token → Option (Progress g)
  | formula K, t =>
    match t.kind with
    | .negation => some (.due (.formula (.negation K)))
    | .openAngle => some (.due (.formula (.compoundLeft K)))
    | .forAll => some (.due (.boundVariable .forAll K))
    | .thereExists => some (.due (.boundVariable .thereExists K))
    | _ => (TermContext.atomLeft K).next? t
  | connective left K, t =>
    t.kind.connective?.map fun c => .due (.formula (.compoundRight left c K))
  | closeAngle left c right K, t =>
    if t.kind = .closeAngle then some (K.fill (.compound c left right)) else none
  | boundVariable q K, t =>
    if t.kind = .variableName then some (.due (.colon q ⟨t.text⟩ K)) else none
  | colon q v K, t =>
    if t.kind = .colon then some (.due (.formula (.quantified q v K))) else none
  | equals left K, t =>
    if t.kind = .equals then some (.due (.term (.atomRight left K))) else none
  | term K, t => K.next? t
  | operation left K, t =>
    t.kind.operation?.map fun op => .due (.term (.operandRight left op K))
  | closeParen left op right K, t =>
    if t.kind = .closeParen then some (K.fill (.compound op left right)) else none

/-- How a message names what is due.  Where a formula is due a term is named, which is what a
formula begins with when no sign of its own announces it. -/
def wording {g : Goal} : Due g → String
  | formula _ => "term"
  | connective .. => "AND, OR or IF_THEN in compound formula"
  | closeAngle .. => ">"
  | boundVariable .. => "VARIABLE"
  | colon .. => ":"
  | equals .. => "="
  | term _ => "term"
  | operation .. => "+ or *"
  | closeParen .. => ")"

/-- How many levels are open: those of the constructs that wait. -/
def depth {g : Goal} : Due g → Nat
  | formula K => K.level - 1
  | connective _ K => K.level
  | closeAngle _ _ _ K => K.level
  | boundVariable _ K => K.level
  | colon _ _ K => K.level
  | equals _ K => K.level
  | term K => K.level - 1
  | operation _ K => K.level
  | closeParen _ _ _ K => K.level

/-- How many levels a token opens, whether or not it may come next.  A token that announces no
formula where one is due is read as a term, one level deeper. -/
def opens {g : Goal} : Due g → TokenKind → Nat
  | formula _, k => if k.beginsConstruct then 1 else 2
  | term _, _ => 1
  | _, _ => 0

end Due

/-- How many levels a formula in the hole closes: its own, and those of the constructs that it
completes. -/
def FormulaContext.closes : FormulaContext → Nat
  | outermost level => level
  | negation K => K.closes + 1
  | compoundLeft _ => 1
  | compoundRight _ _ _ => 1
  | quantified _ _ K => K.closes + 1

/-- How many levels a term in the hole closes. -/
def TermContext.closes {g : Goal} : TermContext g → Nat
  | outermost level => level
  | atomLeft _ => 1
  | atomRight _ K => K.closes + 1
  | successor _ K => K.closes + 1
  | operandLeft _ => 1
  | operandRight _ _ _ => 1

/-- How many levels a token closes where a term is due: zero and a name are terms already. -/
def TermContext.closedBy {g : Goal} (K : TermContext g) : TokenKind → Nat
  | .zero | .variableName => K.closes
  | _ => 0

/-- How many levels a token closes that may come next. -/
def Due.closes {g : Goal} : Due g → TokenKind → Nat
  | formula K, k => (TermContext.atomLeft K).closedBy k
  | closeAngle _ _ _ K, _ => K.closes
  | term K, k => K.closedBy k
  | closeParen _ _ _ K, _ => K.closes
  | _, _ => 0

/-! ### A stop is never due -/

theorem TermContext.isStop_of_next? {g : Goal} {K : TermContext g} {t : Token} {p : Progress g}
    (h : K.next? t = some p) : t.kind.isStop = false := by
  unfold TermContext.next? at h
  split at h <;> simp_all [TokenKind.isStop]

/-- **A stop may never come next.**  So a reading ends at the first one. -/
theorem Due.isStop_of_next? {g : Goal} {c : Due g} {t : Token} {p : Progress g}
    (h : c.next? t = some p) : t.kind.isStop = false := by
  cases hk : t.kind <;> first
    | rfl
    | (cases c <;> simp [Due.next?, TermContext.next?, hk, TokenKind.connective?,
        TokenKind.operation?] at h)

end Typographical
