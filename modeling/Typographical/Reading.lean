/-
# Reading under settings

`Formula.read` reads a text under the settings that a given depth and the
environment lead to.  The settings are found before the text is looked at, and
their depth is the bound of the reading, however large it is.
-/

import Typographical.Parse.Parser
import Typographical.Settings

namespace Typographical

/-- Why a text is not read. -/
inductive ReadError
  | settings (e : SettingsError)
  | refused (e : ParseError)
deriving DecidableEq, Repr

/-- Reads a text as one formula, under the settings that a given depth and the environment lead
to. -/
def Formula.read (validate : Settings.Validator) (source : String) (given : Option DepthValue)
    (environment : Option String) : Except ReadError Formula := do
  let settings ← (Settings.load validate given environment).mapError .settings
  (Formula.parse source settings.maxDepth).mapError .refused

section

variable {validate : Settings.Validator} {given : Option DepthValue} {environment : Option String}

/-- **An error in the settings wins,** whatever the text is. -/
theorem Formula.read_of_error {e : SettingsError}
    (h : Settings.load validate given environment = .error e) (source : String) :
    Formula.read validate source given environment = .error (.settings e) := by
  rw [Formula.read, h]
  rfl

/-- **Settings that are found bound the reading.** -/
theorem Formula.read_of_ok {settings : Settings}
    (h : Settings.load validate given environment = .ok settings) (source : String) :
    Formula.read validate source given environment =
      (Formula.parse source settings.maxDepth).mapError .refused := by
  rw [Formula.read, h]
  rfl

end

end Typographical
