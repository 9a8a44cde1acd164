/-
# The diagnosis and the test

`Formula.diagnose` and `Formula.isWellFormed` go through a formula each in its
own way.  The test looks at a node only once the parts of the node have passed
and stops at the first that fails; the diagnosis looks at every node, also above
one that is at fault already.

What a node itself contributes is empty exactly when the test of that node alone
succeeds, and an issue found in a part stays an issue however far it is carried
to the root.  So the two agree on every formula
(`Formula.findings_eq_nil_iff`).
-/

import Typographical.Report

namespace Typographical
namespace Formula

/-- A node lists nothing on its own account exactly when its own test succeeds. -/
theorem own_issue_eq_nil_iff {p : Prop} [Decidable p] {i : Issue} :
    (if p then [] else [i]) = [] ↔ p := by
  split <;> simp [*]

/-- **Nothing is listed exactly when the test succeeds.** -/
theorem diagnose_eq_nil_iff (F : Formula) : F.diagnose = [] ↔ F.isWellFormed = true := by
  induction F with
  | atom x y => exact ⟨fun _ => rfl, fun _ => rfl⟩
  | negation F ih => rw [diagnose, List.map_eq_nil_iff, ih, isWellFormed]
  | compound c F G ihF ihG =>
    rw [diagnose, List.append_eq_nil_iff, List.append_eq_nil_iff, List.map_eq_nil_iff,
      List.map_eq_nil_iff, own_issue_eq_nil_iff, ihF, ihG, isWellFormed, Bool.and_eq_true,
      Bool.and_eq_true]
  | quantification q v F ih =>
    rw [diagnose, List.append_eq_nil_iff, List.map_eq_nil_iff, own_issue_eq_nil_iff, ih,
      isWellFormed, Bool.and_eq_true, decide_eq_true_iff]

/-- **There is nothing to say about a formula exactly when it is well-formed,** whatever its root
goes by. -/
theorem findings_eq_nil_iff (F : Formula) (root : String) :
    F.findings root = [] ↔ F.isWellFormed = true := by
  rw [findings, List.map_eq_nil_iff, diagnose_eq_nil_iff]

/-- A quantifier that binds nothing is listed also where its body is at fault already. -/
example : (diagnose (quantification .forAll ⟨"b"⟩ (quantification .forAll ⟨"c"⟩
    (atom (.var ⟨"a"⟩) (.numeral 0))))).map Issue.path = [[.formula], []] := by decide

end Formula
end Typographical
