/-
# What the program takes from elsewhere

Two things the program leaves to libraries: the check of a depth that is offered for
the settings, and the writing of a document as JSON.  A run is told which it is to use;
`Library.standard` is what the program is built with.
-/

import Typographical.Settings.Lax
import Typographical.Text.Document

namespace Typographical
namespace Command

/-- What checks a depth for the settings, and what writes a document as JSON with each member on a
line of its own. -/
structure Library where
  validate : Settings.Validator
  json : Text.Document → String

/-- The libraries of the program. -/
def Library.standard : Library where
  validate := Settings.lax
  json := Text.Document.indented

end Command
end Typographical
