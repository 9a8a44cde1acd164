/-
# Variables

A variable is known by its name, and variables are ordered as their names are,
character by character and by code point.  The order is linear, which is what
`Typographical.VariableSet` needs to list a set in one way only.
-/

namespace Typographical

/-- A variable.  Any text will do for a name; the ones that can be written in a formula are a
letter and primes. -/
structure Variable where
  name : String
deriving DecidableEq, Repr, Inhabited

namespace Variable

instance : LT Variable := ⟨fun v w => v.name < w.name⟩

instance (v w : Variable) : Decidable (v < w) :=
  inferInstanceAs (Decidable (v.name < w.name))

theorem lt_irrefl (v : Variable) : ¬v < v :=
  String.lt_irrefl v.name

theorem lt_trans {u v w : Variable} (h : u < v) (k : v < w) : u < w :=
  String.lt_trans h k

/-- **Of two variables neither of which comes first, each is the other.** -/
theorem eq_of_not_lt {v w : Variable} (h : ¬v < w) (k : ¬w < v) : v = w := by
  have e : v.name = w.name :=
    String.le_antisymm (String.not_lt.mp k) (String.not_lt.mp h)
  cases v
  cases w
  simpa using e

end Variable
end Typographical
