/-
# How deep a bound has to be

Every text has a level it needs, the deepest that a reading enters which nothing
bounds.  A bound at or above it changes nothing; a bound below it is an error of
its own, which comes before whatever else is wrong with the text, and is found at
the token that first goes beyond it (`Formula.parse_threshold`).
-/

import Typographical.Proofs.Bound
import Typographical.Proofs.Verdict

namespace Typographical
namespace Parser

/-- The bound is never exceeded in reading the text: the deepest level that is entered is within
it. -/
def Unexceeded (source : String) (bound : Nat) : Prop :=
  (ofString source bound).formulaAndEnd.2.deepest ≤ bound

theorem expectEnd_under (p : Parser) (d : Nat) :
    (p.under d).expectEnd = (p.expectEnd.1, p.expectEnd.2.under d) := by
  by_cases h : p.scanner.scan.1.kind = .endOfText
  · rw [expectEnd_of_endOfText h, expectEnd_of_endOfText (p := p.under d) h]
    rfl
  · rw [expectEnd_of_ne h, expectEnd_of_ne (p := p.under d) h]
    rfl

theorem deepest_formulaAndEnd (p : Parser) : p.formulaAndEnd.2.deepest = p.formula.2.deepest := by
  rw [formulaAndEnd_snd]
  rcases p.formula with ⟨_ | F, later⟩ <;> rfl

/-- **A text that keeps within two bounds is read alike under both.** -/
theorem formulaAndEnd_under {p : Parser} {d : Nat} (stands : p.StandsAt (.formula (.outermost 1)))
    (h : p.formula.2.deepest ≤ p.deepestAllowed)
    (hd : p.formula.2.deepest ≤ d) :
    (p.under d).formulaAndEnd = (p.formulaAndEnd.1, p.formulaAndEnd.2.under d) := by
  have read : (p.under d).formula = (p.formula.1, p.formula.2.under d) := read_under stands h hd
  unfold formulaAndEnd
  rw [read]
  rcases p.formula with ⟨_ | F, later⟩
  · rfl
  · simp only [expectEnd_under]
    rcases later.expectEnd with ⟨_ | _, last⟩ <;> rfl

/-- **The error of a text is behind every token of the formula.** -/
theorem position_of_formulaAndEnd {p q last : Parser} {e : ParseError}
    (h : p.formulaAndEnd = (.error e, last)) (hq : q ∈ p.trail (.formula (.outermost 1))) :
    ∃ n : Int, e.position = some n ∧ q.scanner.offset ≤ n := by
  have before := offset_le_of_mem_trail hq
  have moved := (pos_le_offset_read (.formula (.outermost 1)) p).2
  unfold formulaAndEnd formula at h
  rcases hr : p.read (.formula (.outermost 1)) with ⟨e' | F, later⟩ <;> rw [hr] at h before moved
  · cases h
    exact ⟨_, position_of_read hr, Int.ofNat_le.mpr before⟩
  · by_cases ends : later.scanner.scan.1.kind = .endOfText
    · simp only [expectEnd_of_endOfText ends] at h
      cases h
    · simp only [expectEnd_of_ne ends] at h
      cases h
      have behind := later.scanner.pos_le_offset_scan
      simp only at before moved
      exact ⟨_, rfl, Int.ofNat_le.mpr (by omega)⟩

end Parser

/-- **Some bound is never exceeded.** -/
theorem Parser.exists_unexceeded (source : String) : ∃ bound, Parser.Unexceeded source bound := by
  refine ⟨2 * source.toList.length + 2, ?_⟩
  unfold Parser.Unexceeded
  rw [Parser.deepest_formulaAndEnd]
  refine Parser.deepest_read_le (Parser.standsAt_ofString source _) (Nat.zero_le _) ?_
  simp only [Due.depth, FormulaContext.level, Parser.ofString, Scanner.ofString,
    Parser.deepestAllowed]
  omega

/-- **All bounds that are never exceeded agree on the deepest level.** -/
theorem Parser.Unexceeded.deepest_eq {source : String} {B C : Nat} (h : Unexceeded source B)
    (k : Unexceeded source C) :
    (ofString source C).formulaAndEnd.2.deepest = (ofString source B).formulaAndEnd.2.deepest := by
  unfold Unexceeded at h k
  rw [deepest_formulaAndEnd] at h k
  rw [deepest_formulaAndEnd, deepest_formulaAndEnd]
  rcases Nat.lt_or_ge C (ofString source B).formula.2.deepest with beyond | within
  · obtain ⟨-, -, -, exceeded⟩ :=
      read_under_of_lt (standsAt_ofString source _) (Nat.zero_le _) h beyond
    exact absurd k (Nat.not_le.mpr exceeded)
  · have read : (ofString source C).formula = _ := read_under (standsAt_ofString source _) h within
    rw [read]
    rfl

/-- **A bound below the deepest level is an error of its own.** -/
theorem Parser.Unexceeded.parse_of_lt {source : String} {B d : Nat} (h : Unexceeded source B)
    (beyond : d < (ofString source B).formulaAndEnd.2.deepest) :
    ∃ q, ((ofString source B).trail (.formula (.outermost 1))).find?
        (fun q => decide (d < q.deepest)) = some q ∧
      Formula.parse source d = .error ⟨.nestingTooDeep d, some q.scanner.offset⟩ := by
  unfold Unexceeded at h
  rw [deepest_formulaAndEnd] at h beyond
  obtain ⟨q, found, fails, -⟩ :=
    read_under_of_lt (standsAt_ofString source _) (Nat.zero_le _) h beyond
  refine ⟨q, found, ?_⟩
  have formula : (ofString source d).formula.1 = _ := fails
  rw [Formula.parse_eq, formulaAndEnd]
  rcases hr : (ofString source d).formula with ⟨e | F, later⟩ <;> rw [hr] at formula
  · exact formula
  · cases formula

/-- **A bound at or above the deepest level changes nothing.** -/
theorem Parser.Unexceeded.parse_of_le {source : String} {B d : Nat} (h : Unexceeded source B)
    (within : (ofString source B).formulaAndEnd.2.deepest ≤ d) :
    Formula.parse source d = Formula.parse source B := by
  unfold Unexceeded at h
  rw [deepest_formulaAndEnd] at h within
  have whole : (ofString source d).formulaAndEnd = _ :=
    formulaAndEnd_under (standsAt_ofString source _) h within
  rw [Formula.parse_eq, Formula.parse_eq, whole]

/-- **A bound that a text fits may be raised.** -/
theorem Formula.FitsBound.parse_eq {source : String} {d e : Nat} (h : Formula.FitsBound source d)
    (le : d ≤ e) : Formula.parse source e = Formula.parse source d := by
  obtain ⟨C, hC⟩ := Parser.exists_unexceeded source
  rcases Nat.lt_or_ge d (Parser.ofString source C).formulaAndEnd.2.deepest with beyond | within
  · obtain ⟨q, -, fails⟩ := hC.parse_of_lt beyond
    exact absurd fails (h _)
  · rw [hC.parse_of_le within, hC.parse_of_le (Nat.le_trans within le)]

/-- **The bound that a text needs.**  There is a level that every reading reaches which no bound
cuts short.  A bound at or above it gives what such a reading gives.  A bound below it gives its own
error, at the token behind which such a reading first goes beyond the bound, and that token is no
later than whatever error such a reading ends with.  So a deeper bound never changes a formula or an
error that the depth has no part in. -/
theorem Formula.parse_threshold (source : String) :
    ∃ N : Nat, (∃ B, Parser.Unexceeded source B) ∧
      (∀ B : Nat, Parser.Unexceeded source B →
        (Parser.ofString source B).formulaAndEnd.2.deepest = N ∧
        (∀ d : Nat, N ≤ d → Formula.parse source d = Formula.parse source B) ∧
        ∀ d : Nat, d < N →
          ∃ q, ((Parser.ofString source B).trail (.formula (.outermost 1))).find?
              (fun q => decide (d < q.deepest)) = some q ∧
            Formula.parse source d = .error ⟨.nestingTooDeep d, some q.scanner.offset⟩ ∧
            ∀ e, Formula.parse source B = .error e →
              ∃ n : Int, e.position = some n ∧ q.scanner.offset ≤ n) ∧
      ∀ d e : Nat, d ≤ e → Formula.FitsBound source d →
        Formula.parse source e = Formula.parse source d := by
  obtain ⟨C, hC⟩ := Parser.exists_unexceeded source
  refine ⟨(Parser.ofString source C).formulaAndEnd.2.deepest, ⟨C, hC⟩, fun B hB => ?_,
    fun d e le fits => fits.parse_eq le⟩
  have level := hC.deepest_eq hB
  refine ⟨level, fun d within => hB.parse_of_le (level ▸ within), fun d beyond => ?_⟩
  obtain ⟨q, found, fails⟩ := hB.parse_of_lt (level ▸ beyond)
  refine ⟨q, found, fails, fun e he => ?_⟩
  rw [Formula.parse_eq] at he
  rcases hr : (Parser.ofString source B).formulaAndEnd with ⟨r, last⟩
  rw [hr] at he
  cases he
  exact Parser.position_of_formulaAndEnd hr (List.mem_of_find?_eq_some found)

/-- The hypotheses are met: a text that needs four levels and breaks off is too deep for two before
it breaks off. -/
theorem Formula.parse_threshold_unfinished :
    Parser.Unexceeded "~~0=" 9 ∧ 2 < (Parser.ofString "~~0=" (9 : Nat)).formulaAndEnd.2.deepest ∧
      ∃ q, Formula.parse "~~0=" 2 = .error ⟨.nestingTooDeep 2, some q⟩ ∧
        ∃ n, Formula.parse "~~0=" 9 = .error ⟨.unexpectedEnd "term", some n⟩ ∧ q ≤ n := by
  have whole : (Parser.ofString "~~0=" (9 : Nat)).formulaAndEnd =
      (.error ⟨.unexpectedEnd "term", some 4⟩, ⟨⟨[], 4, 4⟩, 9, 0, 4⟩) := by cbv
  have level : (Parser.ofString "~~0=" (9 : Nat)).formulaAndEnd.2.deepest = 4 := by rw [whole]
  have breaksOff : Formula.parse "~~0=" 9 = .error ⟨.unexpectedEnd "term", some 4⟩ := by
    rw [Formula.parse_eq, whole]
  have unexceeded : Parser.Unexceeded "~~0=" 9 := by
    unfold Parser.Unexceeded
    omega
  obtain ⟨N, -, all, -⟩ := Formula.parse_threshold "~~0="
  obtain ⟨deepest, -, below⟩ := all 9 unexceeded
  have beyond : 2 < N := by omega
  obtain ⟨q, -, fails, before⟩ := below 2 beyond
  obtain ⟨n, position, le⟩ := before _ breaksOff
  cases position
  exact ⟨unexceeded, by omega, _, fails, 4, breaksOff, le⟩

end Typographical
