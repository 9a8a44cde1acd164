/-
# Places in a formula

A place is reached from the root by a list of steps, each to a part of the node
it starts from.  `Formula.parts` lists every node with its place, a node before
its parts and the left part before the right.
-/

import Typographical.Formula

namespace Typographical

/-- A step from a node to one of its parts. -/
inductive Step
  | term
  | left
  | right
  | formula
deriving DecidableEq, Repr, Inhabited

/-- The word for a step. -/
def Step.word : Step → String
  | .term => "term"
  | .left => "left"
  | .right => "right"
  | .formula => "formula"

/-- The steps from the root to a node. -/
abbrev Path := List Step

/-- The words of the steps behind the name of the root, with a point before each. -/
def Path.render (root : String) (p : Path) : String :=
  p.foldl (fun text step => text ++ "." ++ step.word) root

/-- A node of a formula, with everything below it. -/
inductive Node
  | term (t : Term)
  | formula (F : Formula)
deriving DecidableEq, Repr, Inhabited

namespace Node

/-- The name of the sort of node. -/
def kind : Node → String
  | term t => t.kind
  | formula F => F.kind

/-- The variables at and below a node. -/
def vars : Node → VariableSet
  | term t => t.vars
  | formula F => F.vars

end Node

/-- A listed node, one step further from the root. -/
def Node.under (step : Step) (entry : Path × Node) : Path × Node :=
  (step :: entry.1, entry.2)

/-- The nodes of a term, each before its parts. -/
def Term.parts : Term → List (Path × Node)
  | .numeral n => [([], .term (.numeral n))]
  | .var v => [([], .term (.var v))]
  | .successor q t => ([], .term (.successor q t)) :: t.parts.map (Node.under .term)
  | .compound op x y =>
    ([], .term (.compound op x y)) ::
      (x.parts.map (Node.under .left) ++ y.parts.map (Node.under .right))

/-- The nodes of a formula, each before its parts. -/
def Formula.parts : Formula → List (Path × Node)
  | .atom x y =>
    ([], .formula (.atom x y)) ::
      (x.parts.map (Node.under .left) ++ y.parts.map (Node.under .right))
  | .negation F => ([], .formula (.negation F)) :: F.parts.map (Node.under .formula)
  | .compound c F G =>
    ([], .formula (.compound c F G)) ::
      (F.parts.map (Node.under .left) ++ G.parts.map (Node.under .right))
  | .quantification q v F =>
    ([], .formula (.quantification q v F)) :: F.parts.map (Node.under .formula)

end Typographical
