/-
# Reports

A report gathers what there is to say about a formula beside the text it was
read from, and is written as a document whose members come in a fixed order.
-/

import Typographical.Diagnosis
import Typographical.Text.Document

namespace Typographical

/-- What a report says about one issue. -/
structure Finding where
  code : String
  path : String
  message : String
  vars : List String
deriving DecidableEq, Repr

/-- What is said about an issue when the root goes by the given name. -/
def Issue.finding (root : String) (issue : Issue) : Finding :=
  ⟨issue.code, issue.path.render root, issue.message, issue.vars⟩

/-- The findings about a formula when the root goes by the given name. -/
def Formula.findings (root : String) (F : Formula) : List Finding :=
  F.diagnose.map (Issue.finding root)

/-- The name the root of a formula goes by where none is given. -/
def rootName : String := "formula"

/-- What there is to say about a formula. -/
structure Report where
  source : String
  kind : String
  vars : List String
  freeVars : List String
  isOpen : Bool
  isWellFormed : Bool
  findings : List Finding
deriving DecidableEq, Repr

/-- The report on a formula and the text it was read from. -/
def Formula.report (source : String) (F : Formula) : Report where
  source := source
  kind := F.kind
  vars := F.vars.names
  freeVars := F.freeVars.names
  isOpen := F.isOpen
  isWellFormed := F.isWellFormed
  findings := F.findings rootName

/-- A list of texts as a document. -/
def Text.Document.ofTexts (texts : List String) : Text.Document :=
  .list (texts.map .text)

/-- A finding as a document. -/
def Finding.document (f : Finding) : Text.Document :=
  .object [
    ("code", .text f.code),
    ("path", .text f.path),
    ("message", .text f.message),
    ("variables", .ofTexts f.vars)]

/-- A report as a document. -/
def Report.document (r : Report) : Text.Document :=
  .object [
    ("source", .text r.source),
    ("kind", .text r.kind),
    ("variables", .ofTexts r.vars),
    ("free_variables", .ofTexts r.freeVars),
    ("open", .truth r.isOpen),
    ("well_formed", .truth r.isWellFormed),
    ("issues", .list (r.findings.map Finding.document))]

end Typographical
