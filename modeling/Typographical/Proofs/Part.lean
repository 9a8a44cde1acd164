/-
# The parts that are asked for

A parser can be asked for a `Parser.Part`: a formula, a term, or what is left of a
compound or a quantification behind the sign that announces it.  `Part.Derives` says
which tokens these are, by the grammar.  A reading of a part runs to its goal over
such tokens and no others (`Part.Derives.leads`, `Part.exists_derives_of_run`), and
goes on as long as the tokens can be continued to some (`Part.viable_iff`).

A reading that fails is blamed on one token (`Part.Blames`).  Either the tokens before
it can be continued to the part and with it they cannot, or a construct begins with
it that is one level too deep.
-/

import Typographical.Proofs.Consumption
import Typographical.Proofs.Level

namespace Typographical
namespace Parser

variable {g : Goal}

/-- What a parser can be asked for. -/
inductive Part : Goal → Type
  | formula : Part .formula
  | term : Part .term
  | compound : Part .formula
  | quantification (quantifier : Quantifier) : Part .formula

namespace Part

/-- Reads a part. -/
def read : Part g → Parser → Except ParseError g.Tree × Parser
  | formula, p => p.formula
  | term, p => p.term
  | compound, p => p.compound
  | quantification q, p => p.quantification q

/-- What is due at the start of a part. -/
def due : Part g → Due g
  | formula => .formula (.outermost 1)
  | term => .term (.outermost 1)
  | compound => .formula (.compoundLeft (.outermost 0))
  | quantification q => .boundVariable q (.outermost 0)

theorem read_eq (part : Part g) (p : Parser) : part.read p = p.read part.due := by
  cases part <;> rfl

/-- The tokens that reading a part scans. -/
def scanned (part : Part g) (p : Parser) : List Token :=
  p.scanned part.due

/-- The tokens derive the part, and the derivation has the level.  A compound and a quantification
derive from the sign that announces them, which comes before the tokens and opens the level above
them. -/
def Derives : Part g → List Token → g.Tree → Nat → Prop
  | formula, us, F, level => DerivesFormula us F level
  | term, us, t, level => DerivesTerm us t level
  | compound, us, F, level => ∃ sign, DerivesFormula (⟨.openAngle, sign⟩ :: us) F (level + 1)
  | quantification q, us, F, level => ∃ sign, DerivesFormula (⟨q.sign, sign⟩ :: us) F (level + 1)

/-- The tokens derive the part once some tokens are put behind them. -/
def Viable (part : Part g) (us : List Token) : Prop :=
  ∃ more T level, part.Derives (us ++ more) T level

variable {part : Part g} {us : List Token} {T : g.Tree}

/-! ### Runs -/

/-- Behind the sign of a formula at level zero the levels are those below it. -/
theorem leads_behind_sign {d : Due .formula} {sign : Token} {F : Formula} {level : Nat}
    (taken : (Due.formula (.outermost 0)).next? sign = some (.due d))
    (reach : (Due.formula (.outermost 0)).reach sign.kind = 0)
    (h : DerivesFormula (sign :: us) F (level + 1)) :
    (Progress.due d).Leads us (.done F) level := by
  obtain ⟨run, peak⟩ := h.leads (.outermost 0)
  rw [Progress.run_due_cons, taken, Option.bind_some] at run
  rw [Progress.peak_due_cons, taken, reach, Option.elim_some, Nat.zero_max] at peak
  exact ⟨run, peak.trans (by simp [FormulaContext.level])⟩

/-- **A derivation of a part runs to its tree, as deep as its level.** -/
theorem Derives.leads {level : Nat} (h : part.Derives us T level) :
    (Progress.due part.due).Leads us (.done T) level := by
  cases part with
  | formula => exact DerivesFormula.leads_start h
  | term => exact (DerivesTerm.leads h (.outermost 1)).of_level_eq (by simp [TermContext.level])
  | compound =>
    obtain ⟨sign, h⟩ := h
    exact leads_behind_sign rfl rfl h
  | quantification q =>
    obtain ⟨sign, h⟩ := h
    cases q <;> exact leads_behind_sign rfl rfl h

/-- A run to the goal is over a derivation of the part. -/
theorem exists_derives_of_run (h : (Progress.due part.due).run us = some (.done T)) :
    ∃ level, part.Derives us T level := by
  -- behind a sign, the level is the one that the sign opens and another
  have below {sign : Token} {F : Formula} (whole : ∃ l, DerivesFormula (sign :: us) F l) :
      ∃ level, DerivesFormula (sign :: us) F (level + 1) := by
    obtain ⟨l, h⟩ := whole
    obtain ⟨level, rfl⟩ := Nat.exists_eq_add_of_le' h.one_le
    exact ⟨level, h⟩
  cases part with
  | formula => exact exists_derives_of_run_start h
  | term =>
    have start : (Due.term (.outermost 1)).Reached [] := .term (.outermost 1)
    exact Progress.Reached.run (P := .due _) start h
  | compound =>
    have opened : (FormulaContext.outermost 0).compoundLeft.Opened [⟨.openAngle, "<"⟩] :=
      .compoundLeft "<" (.outermost 0)
    obtain ⟨level, h⟩ := below (Progress.Reached.run (P := .due _) (.formula opened) h)
    exact ⟨level, "<", h⟩
  | quantification q =>
    have opened : (Due.boundVariable q (.outermost 0)).Reached [⟨q.sign, ""⟩] :=
      .boundVariable q "" (.outermost 0)
    obtain ⟨level, h⟩ := below (Progress.Reached.run (P := .due _) opened h)
    exact ⟨level, "", h⟩

/-- **What can be continued to the part is what leads anywhere.** -/
theorem viable_iff : part.Viable us ↔ ∃ P, (Progress.due part.due).run us = some P := by
  constructor
  · rintro ⟨more, T, level, h⟩
    obtain ⟨P, run, -⟩ := Progress.exists_run_of_append h.leads.1
    exact ⟨P, run⟩
  · rintro ⟨P, run⟩
    obtain ⟨more, T, ends⟩ := P.completable
    have whole : (Progress.due part.due).run (us ++ more) = some (.done T) := by
      rw [Progress.run_append, run, Option.bind_some, ends]
    exact ⟨more, T, exists_derives_of_run whole⟩

end Part
end Parser

/-! ### The token at fault -/

/-- **A construct begins with a token of this kind, and has the level.**  Where a formula is due, a
token that announces none begins an equation and its left side, a level below. -/
inductive Due.Begins : {g : Goal} → Due g → TokenKind → Nat → Prop
  | formula (K : FormulaContext) (k : TokenKind) : Begins (.formula K) k K.level
  | leftSide (K : FormulaContext) {k : TokenKind} (h : k.beginsConstruct = false) :
      Begins (.formula K) k (K.level + 1)
  | term {g : Goal} (K : TermContext g) (k : TokenKind) : Begins (.term K) k K.level

/-- **What goes beyond a bound begins a construct one level too deep,** if no more levels are open
than are allowed. -/
theorem Due.begins_of_lt {g : Goal} {d : Due g} {k : TokenKind} {allowed : Nat}
    (low : d.depth ≤ allowed) (beyond : allowed < d.reach k) : d.Begins k (allowed + 1) := by
  cases d with
  | formula K =>
    simp only [depth] at low
    cases hb : k.beginsConstruct with
    | true =>
      have level : K.level = allowed + 1 := by
        simp only [reach, hb, if_true] at beyond
        omega
      exact level ▸ .formula K k
    | false =>
      simp only [reach, hb, Bool.false_eq_true, if_false] at beyond
      -- too deep is the equation itself or else its left side
      rcases Nat.lt_or_ge allowed K.level with outer | inner
      · have level : K.level = allowed + 1 := by omega
        exact level ▸ .formula K k
      · have level : K.level = allowed := by omega
        exact level ▸ .leftSide K hb
  | term K =>
    simp only [depth] at low
    simp only [reach] at beyond
    have level : K.level = allowed + 1 := by omega
    exact level ▸ .term K k
  | _ => cases beyond

namespace Parser
namespace Part

/-- **At the start of a part no level is open.** -/
theorem depth_due (part : Part g) : part.due.depth = 0 := by
  cases part <;> rfl

theorem hasLevel_due (part : Part g) : part.due.HasLevel := by
  cases part with
  | quantification q => trivial
  | _ => exact Nat.le_refl 1

/-- **Where no level is open a part may be read.** -/
theorem standsAt (part : Part g) {p : Parser} (closed : p.depth = 0) : p.StandsAt part.due :=
  .of_closed part.hasLevel_due part.depth_due closed

/-- **A call for a part leaves as many levels open as it found.** -/
theorem depth_read (part : Part g) (p : Parser) : (part.read p).2.depth = p.depth := by
  have ends := Parser.depth_read (p := p) part.hasLevel_due (part.depth_due ▸ Nat.zero_le _)
  rwa [part.depth_due, ← part.read_eq] at ends

/-- Which token a failure is blamed on, and why.  The tokens before it are given with it. -/
inductive Blames (part : Part g) (bound : Int) (us : List Token) (t : Token) : ParseFault → Prop
  /-- The tokens can be continued to the part, but not with this one. -/
  | refused (expected : String) (viable : part.Viable us) (hopeless : ¬part.Viable (us ++ [t])) :
      Blames part bound us t (.ofToken expected t)
  /-- The token begins a construct that is one level too deep, and the first that is.  Whatever
  goes on with it is beyond the bound. -/
  | tooDeep {d : Due g} (run : (Progress.due part.due).run us = some (.due d))
      (low : (Progress.due part.due).peak us ≤ bound.toNat)
      (begins : d.Begins t.kind (bound.toNat + 1))
      (beyond : ∀ more T level, part.Derives (us ++ t :: more) T level → bound.toNat < level) :
      Blames part bound us t (.nestingTooDeep bound)

/-- **What is wrong with a token where a reading has come to is what it is blamed for.** -/
theorem Blames.of_faults {part : Part g} {bound : Int} {us : List Token} {t : Token} {d : Due g}
    {fault : ParseFault} (run : (Progress.due part.due).run us = some (.due d))
    (low : (Progress.due part.due).peak us ≤ bound.toNat) (faults : d.Faults bound t fault) :
    part.Blames bound us t fault := by
  cases faults with
  | refused none =>
    refine .refused _ (viable_iff.mpr ⟨_, run⟩) fun viable => ?_
    obtain ⟨P, goesOn⟩ := viable_iff.mp viable
    rw [Progress.run_append, run, Option.bind_some, Progress.run_due_cons, none] at goesOn
    cases goesOn
  | tooDeep beyond =>
    have opened : d.depth ≤ max part.due.depth ((Progress.due part.due).peak us) :=
      Progress.depth_run_le (P := .due part.due) part.hasLevel_due run
    rw [depth_due, Nat.zero_max] at opened
    refine .tooDeep run low (Due.begins_of_lt (Nat.le_trans opened low) beyond) ?_
    intro more T level derives
    have level := derives.leads.2
    rw [Progress.peak_append run, Progress.peak_due_cons] at level
    omega

end Part
end Parser
end Typographical
