/-
# What is taken for a depth

The program has its depths checked by a validator that is lax about their type
(`Settings.lax`).  An integer may also come as a truth value, as a number without a
fraction or as a text; a number or a text may not be too long.
-/

import Typographical.Settings
import Typographical.Text.Integer

namespace Typographical
namespace Settings

/-- What is wrong with a value offered for the depth. -/
inductive Fault
  | belowOne
  | unreadable
  | oversized
  | fractional
  | infinite
  | noInteger
deriving DecidableEq, Repr

/-- What a message says about it. -/
def Fault.description : Fault → String
  | belowOne => "Input should be greater than or equal to 1"
  | unreadable => "Input should be a valid integer, unable to parse string as an integer"
  | oversized => "Unable to parse input string as an integer, exceeded maximum size"
  | fractional => "Input should be a valid integer, got a number with a fractional part"
  | infinite => "Input should be a finite number"
  | noInteger => "Input should be a valid integer"

/-- The integer that a binary floating-point number is.  The number is a significand of 53 bits
shifted by its exponent less 1075; shifted to the right it is an integer when no bit is lost.  The
integer must have a place in 64 bits. -/
def integerOfFloat (x : Float) : Except Fault Int :=
  let bits := x.toBits.toNat
  let negative := 0x8000000000000000 ≤ bits
  let exponent := bits / 0x10000000000000 % 0x800
  let fraction := bits % 0x10000000000000
  let significand := if exponent = 0 then fraction else fraction + 0x10000000000000
  let left := max exponent 1 - 1075
  let right := 1075 - max exponent 1
  let whole := (significand >>> right) <<< left
  if exponent = 0x7FF then .error .infinite
  else if (significand >>> right) <<< right ≠ significand then .error .fractional
  else if 0x8000000000000000 ≤ whole then .error .oversized
  else .ok (Text.withSign negative whole)

/-- The most bytes that a text may have without the white space around it. -/
def sizeLimit : Nat := 4300

/-- The integer that a text stands for. -/
def integerOfText (s : String) : Except Fault Int :=
  let trimmed := String.ofList (Text.trim Text.isWhiteSpace s.toList)
  if sizeLimit < trimmed.utf8ByteSize then .error .oversized
  else
    match Text.readWholeNumber? s with
    | some n => .ok n
    | none => .error .unreadable

/-- The integer that a value stands for. -/
def integerOf : DepthValue → Except Fault Int
  | .integer n => .ok n
  | .truth b => .ok (if b then 1 else 0)
  | .number x => integerOfFloat x
  | .text s => integerOfText s
  | .collection => .error .noInteger

/-- The settings with a depth. -/
def ofDepth (n : Int) : Except Fault Settings :=
  if h : 1 ≤ n then .ok ⟨n.toNat, by omega⟩ else .error .belowOne

/-- The validator of the program. -/
def lax : Validator :=
  fun value => (integerOf value >>= ofDepth).mapError Fault.description

end Settings
end Typographical
