/-
# Settings

The one setting is how deep a formula may nest.  A depth that is given counts
before one from the environment, and that before the default; an environment
that is set to the empty text is not set.

A depth that is offered is checked by a validator, which makes settings of it or
says what is wrong with it.  What a validator takes for an integer is its own
affair; the settings that it makes have a depth of at least one.
-/

namespace Typographical

/-- The settings of a reading. -/
structure Settings where
  maxDepth : Nat
  one_le : 1 ≤ maxDepth
deriving DecidableEq, Repr

/-- A value offered for the depth. -/
inductive DepthValue
  | integer (n : Int)
  | truth (b : Bool)
  | number (x : Float)
  | text (s : String)
  | collection

/-- Where a depth comes from. -/
inductive SettingsSource
  | given
  | environment
deriving DecidableEq, Repr

/-- Why there are no settings: where the depth comes from, and what the validator says about it. -/
structure SettingsError where
  source : SettingsSource
  description : String
deriving DecidableEq, Repr

namespace Settings

/-- The environment variable that may hold a depth. -/
def variableName : String := "TNT_MAX_DEPTH"

/-- What makes settings of a value offered for the depth, or says what is wrong with the value. -/
abbrev Validator : Type :=
  DepthValue → Except String Settings

end Settings

/-- The name a source goes by. -/
def SettingsSource.name : SettingsSource → String
  | .given => "max_depth"
  | .environment => Settings.variableName

/-- The message about an error in the settings. -/
def SettingsError.message (e : SettingsError) : String :=
  s!"invalid {e.source.name}: {e.description}"

namespace Settings

/-- The depth where none is given. -/
def defaultDepth : Nat := 128

/-- The settings that a validator makes of a value. -/
def ofValue (validate : Validator) (source : SettingsSource) (value : DepthValue) :
    Except SettingsError Settings :=
  (validate value).mapError (SettingsError.mk source)

/-- The settings that a given depth and the environment lead to. -/
def load (validate : Validator) (given : Option DepthValue) (environment : Option String) :
    Except SettingsError Settings :=
  match given, environment with
  | some value, _ => ofValue validate .given value
  | none, some s => if s.isEmpty then ofDefault else ofValue validate .environment (.text s)
  | none, none => ofDefault
where
  /-- The settings where nothing is given. -/
  ofDefault : Except SettingsError Settings :=
    .ok ⟨defaultDepth, by decide⟩

end Settings
end Typographical
