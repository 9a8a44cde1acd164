/-
# What is relied on in a validator

A validator is relied on for little: it takes an integer for what it is, from one on,
and what it says about any other value is one line (`Settings.Validator.Lawful`).  So
a depth on the command line is the bound if it is at least one, and otherwise an
error (`Settings.load_integer`).  The validator of the program keeps to this
(`Settings.lawful_lax`).
-/

import Typographical.Proofs.OneLine

namespace Typographical
namespace Settings

/-- What is relied on in a validator. -/
structure Validator.Lawful (validate : Validator) : Prop where
  /-- An integer from one on is the depth. -/
  integer : ∀ n : Int, 1 ≤ n →
    ∃ settings, validate (.integer n) = .ok settings ∧ (settings.maxDepth : Int) = n
  /-- An integer below one is refused. -/
  belowOne : ∀ n : Int, n < 1 → ∃ description, validate (.integer n) = .error description
  /-- What is wrong with a value is said in one line. -/
  oneLine : ∀ value description, validate value = .error description → Text.OneLine description

variable {validate : Validator}

/-- **An integer that is given is the depth from one on,** whatever the environment, and below one
an error about what is given. -/
theorem load_integer (lawful : validate.Lawful) (n : Int) (environment : Option String) :
    (n < 1 → ∃ description, load validate (some (.integer n)) environment =
      .error ⟨.given, description⟩) ∧
    (1 ≤ n → ∃ settings, load validate (some (.integer n)) environment = .ok settings ∧
      (settings.maxDepth : Int) = n) := by
  constructor
  · intro below
    obtain ⟨description, refused⟩ := lawful.belowOne n below
    refine ⟨description, ?_⟩
    rw [load, ofValue, refused]
    rfl
  · intro one
    obtain ⟨settings, accepted, depth⟩ := lawful.integer n one
    refine ⟨settings, ?_, depth⟩
    rw [load, ofValue, accepted]
    rfl

/-- **The message about settings is one line.** -/
theorem oneLine_of_load (lawful : validate.Lawful) {given : Option DepthValue}
    {environment : Option String} {e : SettingsError}
    (h : load validate given environment = .error e) : Text.OneLine e.message := by
  -- there is an error only where the validator has refused a value
  have checked {source : SettingsSource} {value : DepthValue}
      (h : ofValue validate source value = .error e) : Text.OneLine e.message := by
    unfold ofValue at h
    rcases refused : validate value with description | settings <;> rw [refused] at h <;> cases h
    exact SettingsError.oneLine_message (lawful.oneLine value description refused)
  unfold load at h
  split at h
  · exact checked h
  · split at h
    · cases h
    · exact checked h
  · cases h

/-- **The validator of the program keeps to what is relied on.** -/
theorem lawful_lax : Validator.Lawful lax where
  integer n h := by
    refine ⟨⟨n.toNat, by omega⟩, ?_, Int.toNat_of_nonneg (by omega)⟩
    show (ofDepth n).mapError Fault.description = _
    rw [ofDepth, dif_pos h]
    rfl
  belowOne n h := by
    refine ⟨Fault.belowOne.description, ?_⟩
    show (ofDepth n).mapError Fault.description = _
    rw [ofDepth, dif_neg (by omega)]
    rfl
  oneLine value description h := by
    replace h : (integerOf value >>= ofDepth).mapError Fault.description = .error description := h
    rcases checked : integerOf value >>= ofDepth with fault | settings <;> rw [checked] at h <;>
      cases h
    cases fault <;> exact .literal rfl

end Settings
end Typographical
