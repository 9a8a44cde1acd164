/-
# Reading integers

An integer is written as an optional sign and digits, with white space around
it and single low lines between the digits.  Which characters are digits, and
what may follow the last one, differs from place to place: the depth on the
command line takes the digits of every script and at most `digitLimit` of them,
while the depth in the settings takes the ASCII digits and then a point with zeros
after it.
-/

import Typographical.Text.Blank
import Typographical.Text.Digit

namespace Typographical
namespace Text

/-- Splits off a sign: whether it was a minus, and the text after it. -/
def splitSign : List Char → Bool × List Char
  | '-' :: rest => (true, rest)
  | '+' :: rest => (false, rest)
  | rest => (false, rest)

/-- Reads digits, each two of which may have one low line between them. -/
def readDigits (digit? : Char → Option Nat) : List Char → Option (List Nat)
  | [] => none
  | [c] => (digit? c).map ([·])
  | c :: '_' :: rest => do
    let d ← digit? c
    let ds ← readDigits digit? rest
    some (d :: ds)
  | c :: rest => do
    let d ← digit? c
    let ds ← readDigits digit? rest
    some (d :: ds)

/-- The number that decimal digits stand for, the first being the highest. -/
def ofDigits (ds : List Nat) : Nat :=
  ds.foldl (fun n d => 10 * n + d) 0

/-- The number with a sign. -/
def withSign (negative : Bool) (n : Nat) : Int :=
  if negative then -(n : Int) else n

/-- The most digits an integer on the command line may have. -/
def digitLimit : Nat := 4300

/-- Reads an integer in the digits of any script. -/
def readInteger? (s : String) : Option Int :=
  let (negative, body) := splitSign (trim isWhiteSpace s.toList)
  match readDigits decimalDigit? body with
  | some ds => if ds.length ≤ digitLimit then some (withSign negative (ofDigits ds)) else none
  | none => none

/-- Reads an integer in ASCII digits, which a point and one or more zeros may follow. -/
def readWholeNumber? (s : String) : Option Int :=
  let (negative, body) := splitSign (trim isWhiteSpace s.toList)
  let whole := body.takeWhile (· != '.')
  let fraction := body.dropWhile (· != '.')
  let fractionFits := match fraction with
    | [] => true
    | _ :: zeros => !zeros.isEmpty && zeros.all (· == '0')
  if fractionFits then
    (readDigits asciiDigit? whole).map fun ds => withSign negative (ofDigits ds)
  else none

example : readInteger? " -1_0 " = some (-10) ∧ readInteger? "1__0" = none := by decide +kernel

example : readWholeNumber? "+07.00" = some 7 ∧ readWholeNumber? "7." = none := by decide +kernel

end Text
end Typographical
