/-
# Why a text is refused

A refusal has a cause and, where the text was read to some place, the offset of
the token at fault.  The wording of a cause does not depend on the offset, which
is named at the end of the message.
-/

import Typographical.Text.Quoted
import Typographical.Token

namespace Typographical

/-- What is wrong with a text. -/
inductive ParseFault
  | unexpectedToken (expected : String) (actual : TokenKind) (lexeme : String)
  | unexpectedEnd (expected : String)
  | trailingInput (remaining : TokenKind) (lexeme : String)
  | illegalCharacter (character : String)
  | nestingTooDeep (bound : Int)
  | other (description : String)
deriving DecidableEq, Repr

namespace ParseFault

/-- The wording of a fault. -/
def description : ParseFault → String
  | unexpectedToken expected actual lexeme =>
    s!"expected {expected} but got {actual.label} {Text.quoted lexeme}"
  | unexpectedEnd expected => s!"expected {expected} but reached end of input"
  | trailingInput remaining lexeme =>
    s!"expected end of input but got {remaining.label} {Text.quoted lexeme}"
  | illegalCharacter character => s!"illegal character {Text.quoted character}"
  | nestingTooDeep bound => s!"formula nested deeper than {bound} levels"
  | other text => text

/-- The fault of finding a token where something else was expected. -/
def ofToken (expected : String) (t : Token) : ParseFault :=
  match t.kind with
  | .endOfText => unexpectedEnd expected
  | .illegal => illegalCharacter t.text
  | kind => unexpectedToken expected kind t.text

end ParseFault

/-- A fault with the offset it was found at, if it was found in a text. -/
structure ParseError where
  fault : ParseFault
  position : Option Int
deriving DecidableEq, Repr

/-- The message: the wording of the fault, then the offset. -/
def ParseError.message (e : ParseError) : String :=
  match e.position with
  | some position => s!"{e.fault.description} at offset {position}"
  | none => e.fault.description

end Typographical
