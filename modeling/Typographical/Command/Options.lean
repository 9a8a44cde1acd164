/-
# The command line: what was asked for

The marked arguments are acted upon from left to right.  The first value is the
formula.  A switch that takes a value takes the attached one or else the value
behind it, and of a switch given twice the last counts.  Arguments that nothing
takes are gathered and refused at the end, so that an error met on the way, or
the request for help, comes first.
-/

import Typographical.Command.Argument
import Typographical.Text.Integer
import Typographical.Text.Quoted

namespace Typographical
namespace Command

/-- What a command line asks for. -/
structure Options where
  formula : Option String
  file : Option String
  maxDepth : Option Int
  strictFail : Bool
  verbose : Bool
  version : Bool
deriving DecidableEq, Repr

/-- A command line that asks for nothing. -/
def Options.initial : Options := ⟨none, none, none, false, false, false⟩

/-- Why a command line leads no further. -/
inductive Stop
  | help
  | misuse (e : Misuse)
deriving DecidableEq, Repr

/-- The message about a misuse. -/
def Misuse.message : Misuse → String
  | ambiguous argument candidates =>
    let names := ", ".intercalate candidates
    s!"ambiguous option: {argument} could match {names}"
  | valueMissing switch => s!"argument {switch.title}: expected one argument"
  | valueUnwanted switch value =>
    s!"argument {switch.title}: ignored explicit argument {Text.quoted value}"
  | notAnInteger switch value =>
    s!"argument {switch.title}: invalid int value: {Text.quoted value}"
  | unrecognized arguments =>
    let listed := " ".intercalate arguments
    s!"unrecognized arguments: {listed}"
  | formulaMissing => "a formula or --file is required"
  | formulaTwice => "give either a formula or --file, not both"

/-- What a spelling leads to behind the switches without value: nothing more, a value, the need
for one, or text that names no switch. -/
inductive Tail
  | nothing
  | valueGiven (switch : Switch) (value : String)
  | valueNeeded (switch : Switch)
  | leftover (text : String)
deriving DecidableEq, Repr

/-- A switch with nothing attached. -/
def bare (switch : Switch) : List Switch × Tail :=
  if switch.takesValue then ([], .valueNeeded switch) else ([switch], .nothing)

/-- A switch by a short name with text behind it: a value if it takes one, else further short
names. -/
def unfoldShort (switch : Switch) (behindEquals : Bool) :
    List Char → Except Misuse (List Switch × Tail)
  | [] =>
    if switch.takesValue then .ok ([], .valueGiven switch "")
    else .error (.valueUnwanted switch "")
  | c :: rest =>
    if switch.takesValue then .ok ([], .valueGiven switch (String.ofList (c :: rest)))
    else if behindEquals || c == '-' then
      .error (.valueUnwanted switch (String.ofList (c :: rest)))
    else
      match Switch.ofName? (String.ofList ['-', c]) with
      | none => .ok ([switch], .leftover (String.ofList ('-' :: c :: rest)))
      | some further => do
        let (switches, tail) ←
          match rest with
          | [] => .ok (bare further)
          | '=' :: value => unfoldShort further true value
          | d :: more => unfoldShort further false (d :: more)
        .ok (switch :: switches, tail)
termination_by text => text.length

/-- The switches without value that a spelling asks for, and what it leads to behind them. -/
def Spelling.unfold (s : Spelling) : Except Misuse (List Switch × Tail) :=
  match s.attachment with
  | none => .ok (bare s.switch)
  | some a =>
    if isShort s.name.toList then unfoldShort s.switch a.behindEquals a.text
    else if s.switch.takesValue then
      .ok ([], .valueGiven s.switch (String.ofList a.text))
    else .error (.valueUnwanted s.switch (String.ofList a.text))

namespace Options

/-- The options once a switch without value was met. -/
def turnOn (o : Options) : Switch → Except Stop Options
  | .help => .error .help
  | .strictFail => .ok { o with strictFail := true }
  | .verbose => .ok { o with verbose := true }
  | .version => .ok { o with version := true }
  | .file | .maxDepth => .ok o

/-- The options once a switch was met with a value. -/
def setValue (o : Options) (value : String) : Switch → Except Stop Options
  | .file => .ok { o with file := some value }
  | .maxDepth =>
    match Text.readInteger? value with
    | some n => .ok { o with maxDepth := some n }
    | none => .error (.misuse (.notAnInteger .maxDepth value))
  | _ => .ok o

/-- Acts upon marked arguments.  `formulaDue` says whether the formula may still come, `extras`
holds what nothing has taken so far. -/
def gather (o : Options) (formulaDue : Bool) (extras : List String) :
    List (String × Mark) → Except Stop Options
  | [] => if extras.isEmpty then .ok o else .error (.misuse (.unrecognized extras))
  | (argument, .value) :: rest =>
    if formulaDue then
      let o := { o with formula := some argument }
      match rest with
      | (_, .separator) :: values => o.gather false extras values
      | rest => o.gather false extras rest
    else o.gather false (extras ++ [argument]) rest
  | (argument, .separator) :: rest =>
    if formulaDue then
      match rest with
      | (value, _) :: values => { o with formula := some value }.gather false extras values
      | [] => o.gather false extras []
    else o.gather false (extras ++ [argument]) rest
  | (argument, .unknown) :: rest => o.gather formulaDue (extras ++ [argument]) rest
  | (_, .switch spelling) :: rest => do
    let (switches, tail) ← spelling.unfold.mapError .misuse
    match tail with
    | .nothing =>
      let o ← switches.foldlM turnOn o
      o.gather formulaDue extras rest
    | .leftover text =>
      let o ← switches.foldlM turnOn o
      o.gather formulaDue (extras ++ [text]) rest
    | .valueGiven switch value =>
      let o ← switches.foldlM turnOn o
      let o ← o.setValue value switch
      o.gather formulaDue extras rest
    | .valueNeeded switch =>
      match rest with
      | (value, .value) :: rest =>
        let o ← switches.foldlM turnOn o
        let o ← o.setValue value switch
        o.gather formulaDue extras rest
      | _ => .error (.misuse (.valueMissing switch))
termination_by arguments => arguments.length

/-- What a command line asks for. -/
def ofArguments (arguments : List String) : Except Stop Options := do
  let marks ← (markAll arguments).mapError .misuse
  Options.initial.gather true [] marks

end Options
end Command
end Typographical
