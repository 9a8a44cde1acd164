/-
# Reading under another bound

A bound does nothing to a reading until a token takes it to a level beyond.
`Parser.under` puts another bound on a parser and `Parser.trail` follows a reading
from token to token.  What a token does under two bounds is carried through the
whole reading:

* a reading that stays within both is the same under both (`Parser.read_under`);
* one that stays within the first but not within the second fails under the second
  behind the first token that goes beyond it (`Parser.read_under_of_lt`).

A reading ends without any bound.  As a token opens two levels at most, it cannot
go deeper than the length of the text allows (`Parser.deepest_read_le`).
-/

import Typographical.Proofs.Level
import Typographical.Proofs.Outcome

namespace Typographical
namespace Parser

variable {g : Goal}

/-! ### What a token does to the parser -/

section Token

variable {c : Due g} {p later : Parser} {r : Except ParseError (Progress g)}

theorem scanner_of_advance (taken : p.advance c = (r, later)) :
    later.scanner = p.scanner.scan.2 := by
  rcases take_cases c p.scanner.scan.1 p.next.2 with ⟨-, -, e⟩ | ⟨-, -, e⟩ | ⟨P, -, -, e⟩ <;>
    cases taken.symm.trans e <;> rfl

theorem bound_of_advance (taken : p.advance c = (r, later)) : later.bound = p.bound := by
  rcases take_cases c p.scanner.scan.1 p.next.2 with ⟨-, -, e⟩ | ⟨-, -, e⟩ | ⟨P, -, -, e⟩ <;>
    cases taken.symm.trans e <;> rfl

theorem deepestAllowed_of_advance (taken : p.advance c = (r, later)) :
    later.deepestAllowed = p.deepestAllowed :=
  congrArg Int.toNat (bound_of_advance taken)

theorem deepest_le_of_advance (taken : p.advance c = (r, later)) : p.deepest ≤ later.deepest := by
  rcases take_cases c p.scanner.scan.1 p.next.2 with ⟨-, -, e⟩ | ⟨-, -, e⟩ | ⟨P, -, -, e⟩ <;>
    cases taken.symm.trans e <;> exact Nat.le_max_left ..

theorem position_of_advance {e : ParseError} (taken : p.advance c = (.error e, later)) :
    e.position = some ↑later.scanner.offset := by
  rcases take_cases c p.scanner.scan.1 p.next.2 with ⟨-, -, e⟩ | ⟨-, -, e⟩ | ⟨P, -, -, e⟩ <;>
    cases taken.symm.trans e <;> rfl

/-- The parser under another bound. -/
def under (p : Parser) (d : Nat) : Parser :=
  { p with bound := d }

/-- What is due may be read under any bound that has not been passed yet. -/
theorem StandsAt.under {d : Nat} (h : p.StandsAt c) (low : p.deepest ≤ d) :
    (p.under d).StandsAt c where
  hasLevel := h.hasLevel
  depth_eq := h.depth_eq
  depth_le_deepest := h.depth_le_deepest
  depth_le_allowed := Nat.le_trans h.depth_le_deepest low

/-- **A token that keeps within two bounds does the same under both.** -/
theorem advance_under {d : Nat} (stands : p.StandsAt c) (taken : p.advance c = (r, later))
    (h : later.deepest ≤ p.deepestAllowed) (hd : later.deepest ≤ d) :
    (p.under d).advance c = (r, later.under d) := by
  have there := stands.under (Nat.le_trans (deepest_le_of_advance taken) hd)
  rcases advance_cases stands with ⟨beyond, e⟩ | ⟨-, k, e⟩ | ⟨P, -, k, e⟩ <;>
    cases taken.symm.trans e <;> simp only [left] at h hd
  · omega
  · have within : c.reach p.scanner.scan.1.kind ≤ d := by omega
    rw [advance_of_refused there within k]
    rfl
  · have within : c.reach p.scanner.scan.1.kind ≤ d := by omega
    rw [advance_of_taken there within k]
    rfl

/-- **The first token beyond a bound is too deep under it.** -/
theorem advance_under_of_lt {d : Nat} (stands : p.StandsAt c) (taken : p.advance c = (r, later))
    (low : p.deepest ≤ d) (h : later.deepest ≤ p.deepestAllowed) (beyond : d < later.deepest) :
    (p.under d).advance c =
      (.error ⟨.nestingTooDeep d, some later.scanner.offset⟩,
        (p.under d).left later.scanner (d + 1)) := by
  have reach : d < c.reach p.scanner.scan.1.kind := by
    rcases advance_cases stands with ⟨-, e⟩ | ⟨-, -, e⟩ | ⟨P, -, -, e⟩ <;>
      cases taken.symm.trans e <;> simp only [left] at h beyond <;> omega
  rw [scanner_of_advance taken, advance_of_lt (stands.under low) reach]
  rfl

end Token

/-! ### What a reading does to the parser -/

/-- The parser after each token of a reading. -/
def trail (c : Due g) (p : Parser) : List Parser :=
  match _taken : p.advance c with
  | (.error _, later) => [later]
  | (.ok (.done _), later) => [later]
  | (.ok (.due next), later) => later :: trail next later
termination_by p.scanner.rest.length
decreasing_by exact rest_advance_lt _taken

/-- A trail goes by its first token. -/
theorem trail_eq (c : Due g) (p : Parser) :
    p.trail c =
      match p.advance c with
      | (.error _, later) => [later]
      | (.ok (.done _), later) => [later]
      | (.ok (.due next), later) => later :: later.trail next := by
  rw [trail]
  split <;> simp [*]

/-- A trail ends with the parser that the reading leaves. -/
theorem getLast?_trail (c : Due g) (p : Parser) : (p.trail c).getLast? = some (p.read c).2 := by
  induction c, p using Parser.read.induct with
  | case1 c p _ later taken | case2 c p _ later taken =>
    rw [trail_eq, read_eq, taken]
    rfl
  | case3 c p next later taken ih =>
    rw [trail_eq, read_eq, taken]
    simp only [List.getLast?_cons, ih, Option.getD_some]

theorem deepest_le_read (c : Due g) (p : Parser) : p.deepest ≤ (p.read c).2.deepest := by
  induction c, p using Parser.read.induct with
  | case1 c p _ later taken | case2 c p _ later taken =>
    rw [read_eq, taken]
    exact deepest_le_of_advance taken
  | case3 c p next later taken ih =>
    rw [read_eq, taken]
    exact Nat.le_trans (deepest_le_of_advance taken) ih

/-- **A reading that keeps within two bounds is the same under both.** -/
theorem read_under {c : Due g} {p : Parser} {d : Nat} (stands : p.StandsAt c)
    (h : (p.read c).2.deepest ≤ p.deepestAllowed) (hd : (p.read c).2.deepest ≤ d) :
    (p.under d).read c = ((p.read c).1, (p.read c).2.under d) := by
  induction c, p using Parser.read.induct with
  | case1 c p _ later taken | case2 c p _ later taken =>
    rw [read_eq, taken] at h hd
    rw [read_eq, advance_under stands taken h hd, read_eq c p, taken]
  | case3 c p next later taken ih =>
    have whole : p.read c = later.read next := by rw [read_eq, taken]
    rw [whole] at h hd ⊢
    have low := deepest_le_read next later
    have step := advance_under stands taken (Nat.le_trans low h) (Nat.le_trans low hd)
    rw [← deepestAllowed_of_advance taken] at h
    rw [read_eq, step]
    exact ih (stands.advance taken) h hd

/-- **A reading that goes beyond a bound fails under it,** behind the first token that does. -/
theorem read_under_of_lt {c : Due g} {p : Parser} {d : Nat} (stands : p.StandsAt c)
    (low : p.deepest ≤ d) (h : (p.read c).2.deepest ≤ p.deepestAllowed)
    (beyond : d < (p.read c).2.deepest) :
    ∃ q, (p.trail c).find? (fun q => decide (d < q.deepest)) = some q ∧
      ((p.under d).read c).1 = .error ⟨.nestingTooDeep d, some q.scanner.offset⟩ ∧
      d < ((p.under d).read c).2.deepest := by
  -- under the bound the reading ends at this token
  have ends {c : Due g} {p later : Parser} {r : Except ParseError (Progress g)}
      (stands : p.StandsAt c) (taken : p.advance c = (r, later)) (low : p.deepest ≤ d)
      (h : later.deepest ≤ p.deepestAllowed) (beyond : d < later.deepest) :
      ((p.under d).read c).1 = .error ⟨.nestingTooDeep d, some later.scanner.offset⟩ ∧
        d < ((p.under d).read c).2.deepest := by
    rw [read_eq, advance_under_of_lt stands taken low h beyond]
    exact ⟨rfl, Nat.le_max_right ..⟩
  induction c, p using Parser.read.induct with
  | case1 c p _ later taken | case2 c p _ later taken =>
    rw [read_eq, taken] at h beyond
    refine ⟨later, ?_, ends stands taken low h beyond⟩
    rw [trail_eq, taken]
    exact List.find?_cons_of_pos (decide_eq_true beyond)
  | case3 c p next later taken ih =>
    have whole : p.read c = later.read next := by rw [read_eq, taken]
    rw [whole] at h beyond
    have within : later.deepest ≤ p.deepestAllowed := Nat.le_trans (deepest_le_read next later) h
    rw [trail_eq, taken]
    rcases Nat.lt_or_ge d later.deepest with now | yet
    · refine ⟨later, ?_, ends stands taken low within now⟩
      exact List.find?_cons_of_pos (decide_eq_true now)
    · rw [← deepestAllowed_of_advance taken] at h
      obtain ⟨q, found, fails⟩ := ih (stands.advance taken) yet h beyond
      rw [read_eq, advance_under stands taken within yet]
      refine ⟨q, ?_, fails⟩
      exact (List.find?_cons_of_neg (by simpa using yet)).trans found

/-! ### Where errors are -/

/-- **A reading moves on.** -/
theorem pos_le_offset_read (c : Due g) (p : Parser) :
    p.scanner.pos ≤ (p.read c).2.scanner.offset ∧
      (p.read c).2.scanner.offset ≤ (p.read c).2.scanner.pos := by
  induction c, p using Parser.read.induct with
  | case1 c p _ later taken | case2 c p _ later taken =>
    rw [read_eq, taken, scanner_of_advance taken]
    exact ⟨p.scanner.pos_le_offset_scan, p.scanner.offset_scan_le_pos_scan⟩
  | case3 c p next later taken ih =>
    have pos := p.scanner.pos_le_offset_scan
    have offset := p.scanner.offset_scan_le_pos_scan
    rw [← scanner_of_advance taken] at pos offset
    rw [read_eq, taken]
    exact ⟨Nat.le_trans pos (Nat.le_trans offset ih.1), ih.2⟩

/-- No token of a reading begins behind the one it ends with. -/
theorem offset_le_of_mem_trail {c : Due g} {p q : Parser} (h : q ∈ p.trail c) :
    q.scanner.offset ≤ (p.read c).2.scanner.offset := by
  induction c, p using Parser.read.induct with
  | case1 c p _ later taken | case2 c p _ later taken =>
    rw [trail_eq, taken] at h
    have last : q = (p.read c).2 := by rw [read_eq, taken, List.mem_singleton.mp h]
    exact Nat.le_of_eq (by rw [last])
  | case3 c p next later taken ih =>
    rw [trail_eq, taken] at h
    rw [read_eq, taken]
    rcases List.mem_cons.mp h with rfl | h
    · have offset := p.scanner.offset_scan_le_pos_scan
      rw [← scanner_of_advance taken] at offset
      exact Nat.le_trans offset (pos_le_offset_read next q).1
    · exact ih h

/-- **An error of a reading is at the token it ends with.** -/
theorem position_of_read {c : Due g} {p later : Parser} {e : ParseError}
    (h : p.read c = (.error e, later)) : e.position = some ↑later.scanner.offset := by
  induction c, p using Parser.read.induct with
  | case1 c p _ _ taken =>
    rw [read_eq, taken] at h
    cases h
    exact position_of_advance taken
  | case2 c p _ _ taken =>
    rw [read_eq, taken] at h
    cases h
  | case3 c p next _ taken ih =>
    rw [read_eq, taken] at h
    exact ih h

/-! ### A bound that is deep enough -/

/-- A token keeps within a bound that has room for two levels more. -/
theorem deepest_advance_le {c : Due g} {p later : Parser} {r : Except ParseError (Progress g)}
    (stands : p.StandsAt c) (taken : p.advance c = (r, later)) (low : p.deepest ≤ p.deepestAllowed)
    (room : c.depth + 2 ≤ p.deepestAllowed) : later.deepest ≤ p.deepestAllowed := by
  have reach := c.reach_le p.scanner.scan.1.kind
  rcases advance_cases stands with ⟨beyond, e⟩ | ⟨within, -, e⟩ | ⟨P, within, -, e⟩ <;>
    cases taken.symm.trans e <;> simp only [left] <;> omega

/-- A token opens two levels at most. -/
theorem depth_le_of_advance {c next : Due g} {p later : Parser} (level : c.HasLevel)
    (taken : p.advance c = (.ok (.due next), later)) : next.depth ≤ c.depth + 2 := by
  have reach := c.reach_le p.scanner.scan.1.kind
  have depth : next.depth ≤ _ := Due.depth_next?_le level (next?_of_advance taken)
  omega

/-- **A reading never goes beyond a bound that leaves two levels for every character.** -/
theorem deepest_read_le {c : Due g} {p : Parser} (stands : p.StandsAt c)
    (low : p.deepest ≤ p.deepestAllowed)
    (h : c.depth + 2 * p.scanner.rest.length + 2 ≤ p.deepestAllowed) :
    (p.read c).2.deepest ≤ p.deepestAllowed := by
  induction c, p using Parser.read.induct with
  | case1 c p _ later taken | case2 c p _ later taken =>
    rw [read_eq, taken]
    exact deepest_advance_le stands taken low (by omega)
  | case3 c p next later taken ih =>
    -- a token that is taken pays for the two levels it may open
    have now := deepest_advance_le stands taken low (by omega)
    have opened := depth_le_of_advance stands.hasLevel taken
    have shorter := rest_advance_lt taken
    rw [read_eq, taken]
    rw [← deepestAllowed_of_advance taken] at now h ⊢
    exact ih (stands.advance taken) now (by omega)

end Parser
end Typographical
