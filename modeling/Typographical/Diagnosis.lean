/-
# What is wrong with a formula

`Formula.diagnose` lists the reasons why a formula is not well-formed: each
compound between whose sides a variable is captured, and each quantifier whose
variable is not free below it.  A node comes after its parts, the left part
before the right.
-/

import Typographical.Formula.Path

namespace Typographical

/-- A reason why a formula is not well-formed, with the place of the node at fault. -/
inductive Issue
  | capture (path : Path) (connective : Connective) (captured : VariableSet)
  | vacuous (path : Path) (bound : Variable)
deriving DecidableEq, Repr

namespace Issue

/-- The name of the kind of issue. -/
def code : Issue → String
  | capture .. => "VARIABLE_CAPTURE"
  | vacuous .. => "VACUOUS_QUANTIFIER"

/-- The place of the node at fault. -/
def path : Issue → Path
  | capture p _ _ => p
  | vacuous p _ => p

/-- The names of the variables concerned. -/
def vars : Issue → List String
  | capture _ _ vs => vs.names
  | vacuous _ v => [v.name]

/-- What a message says about it. -/
def message : Issue → String
  | capture _ c vs =>
    s!"Variables {vs.render} are quantified on one side of the {c.word} and free on the other"
  | vacuous _ v => s!"Quantified variable {v.name} is not free in its body"

/-- The same issue, one step further from the root. -/
def under (step : Step) : Issue → Issue
  | capture p c vs => capture (step :: p) c vs
  | vacuous p v => vacuous (step :: p) v

end Issue

/-- The reasons why a formula is not well-formed. -/
def Formula.diagnose : Formula → List Issue
  | .atom .. => []
  | .negation F => F.diagnose.map (Issue.under .formula)
  | .compound c F G =>
    let captured := capturedVars F G
    F.diagnose.map (Issue.under .left) ++ G.diagnose.map (Issue.under .right) ++
      (if captured.isEmpty then [] else [.capture [] c captured])
  | .quantification _ v F =>
    F.diagnose.map (Issue.under .formula) ++
      (if v ∈ F.freeVars then [] else [.vacuous [] v])

end Typographical
