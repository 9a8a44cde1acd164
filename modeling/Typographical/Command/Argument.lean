/-
# The command line: what an argument is

Before any argument is acted upon, each is taken for a value, for the separator
`--` behind which everything is a value, for a switch, or for something that is
none of these.

A switch may be spelled in full, by the beginning of a long name that no other
name shares, or by a short name with more characters behind it.  A value may be
attached to a long name behind an equals sign.  What begins with a hyphen is yet
a value if it is the hyphen alone, or is no switch and either looks like a
negative number or has a space in it.
-/

import Typographical.Command.Switch
import Typographical.Text.Digit

namespace Typographical
namespace Command

/-- What is wrong with a command line. -/
inductive Misuse
  | ambiguous (argument : String) (candidates : List String)
  | valueMissing (switch : Switch)
  | valueUnwanted (switch : Switch) (value : String)
  | notAnInteger (switch : Switch) (value : String)
  | unrecognized (arguments : List String)
  | formulaMissing
  | formulaTwice
deriving DecidableEq, Repr

/-- Text written behind the name of a switch, and whether an equals sign stands between. -/
structure Attachment where
  behindEquals : Bool
  text : List Char
deriving DecidableEq, Repr

/-- A switch as it was asked for. -/
structure Spelling where
  name : String
  switch : Switch
  attachment : Option Attachment
deriving DecidableEq, Repr

/-- What an argument is taken for. -/
inductive Mark
  | value
  | separator
  | switch (spelling : Spelling)
  | unknown
deriving DecidableEq, Repr

/-- What stands before and behind the first equals sign. -/
def splitEquals (argument : List Char) : List Char × Option Attachment :=
  match argument.dropWhile (· != '=') with
  | [] => (argument, none)
  | _ :: text => (argument.takeWhile (· != '='), some ⟨true, text⟩)

/-- Whether a name has only one hyphen. -/
def isShort : List Char → Bool
  | '-' :: '-' :: _ => false
  | _ => true

/-- The switches that an argument may be short for. -/
def candidates (argument : List Char) : List Spelling :=
  if isShort argument then
    Switch.table.filterMap fun (name, switch) =>
      if name.toList = argument.take 2 then some ⟨name, switch, some ⟨false, argument.drop 2⟩⟩
      else if argument.isPrefixOf name.toList then some ⟨name, switch, none⟩
      else none
  else
    let (start, attachment) := splitEquals argument
    Switch.table.filterMap fun (name, switch) =>
      if start.isPrefixOf name.toList then some ⟨name, switch, attachment⟩ else none

/-- Whether every character is a decimal digit. -/
def allDigits (s : List Char) : Bool :=
  s.all fun c => (Text.decimalDigit? c).isSome

/-- Whether an argument is a hyphen before digits that may have a point among them or before
them; a line feed may end it. -/
def looksNegative : List Char → Bool
  | '-' :: body =>
    let number := if body.getLast? = some '\n' then body.dropLast else body
    match number.dropWhile (· != '.') with
    | [] => !number.isEmpty && allDigits number
    | _ :: fraction =>
      allDigits (number.takeWhile (· != '.')) && !fraction.isEmpty && allDigits fraction
  | _ => false

/-- What an argument is taken for that begins with a hyphen and is no name of a switch. -/
def markHyphened (argument : List Char) : Except Misuse Mark :=
  let (start, attachment) := splitEquals argument
  match attachment, Switch.ofName? (String.ofList start) with
  | some a, some switch => .ok (.switch ⟨String.ofList start, switch, some a⟩)
  | _, _ =>
    match candidates argument with
    | [spelling] => .ok (.switch spelling)
    | [] =>
      if looksNegative argument || argument.contains ' ' then .ok .value else .ok .unknown
    | several => .error (.ambiguous (String.ofList argument) (several.map Spelling.name))

/-- What an argument before the separator is taken for. -/
def markArgument (argument : String) : Except Misuse Mark :=
  match Switch.ofName? argument with
  | some switch => .ok (.switch ⟨argument, switch, none⟩)
  | none =>
    match argument.toList with
    | '-' :: c :: rest => markHyphened ('-' :: c :: rest)
    | _ => .ok .value

/-- The arguments with what each is taken for. -/
def markAll : List String → Except Misuse (List (String × Mark))
  | [] => .ok []
  | argument :: rest =>
    if argument = "--" then
      .ok ((argument, .separator) :: rest.map fun value => (value, .value))
    else do
      let mark ← markArgument argument
      let marks ← markAll rest
      .ok ((argument, mark) :: marks)

end Command
end Typographical
