/-
# What a reading takes in

`Parser.scanned` lists the tokens that a reading scans.  By them alone it is decided
what the reading answers, up to the offset of an error: a parser under the same
bound whose next tokens are the same scans those, no more and no fewer, and answers
the same (`Parser.read_congr`).

A reading that succeeds has scanned a run to its goal (`Parser.run_scanned`), one
that fails the tokens before the one at fault and that one (`Parser.fault_of_read`);
either has gone no deeper than the bound allows.
-/

import Typographical.Proofs.Bound
import Typographical.Proofs.Place

namespace Typographical

/-- What is wrong with a token where something is due, under a bound. -/
inductive Due.Faults {g : Goal} (bound : Int) (d : Due g) (t : Token) : ParseFault → Prop
  | tooDeep (beyond : bound.toNat < d.reach t.kind) : Faults bound d t (.nestingTooDeep bound)
  | refused (none : d.next? t = none) : Faults bound d t (.ofToken d.wording t)

namespace Parser

variable {g : Goal}

/-! ### The tokens of a reading -/

/-- The tokens that a reading scans. -/
def scanned (c : Due g) (p : Parser) : List Token :=
  match _taken : p.advance c with
  | (.error _, _) => [p.scanner.scan.1]
  | (.ok (.done _), _) => [p.scanner.scan.1]
  | (.ok (.due next), later) => p.scanner.scan.1 :: scanned next later
termination_by p.scanner.rest.length
decreasing_by exact rest_advance_lt _taken

/-- The tokens of a reading go by the first. -/
theorem scanned_eq (c : Due g) (p : Parser) :
    p.scanned c =
      match p.advance c with
      | (.error _, _) => [p.scanner.scan.1]
      | (.ok (.done _), _) => [p.scanner.scan.1]
      | (.ok (.due next), later) => p.scanner.scan.1 :: later.scanned next := by
  rw [scanned]
  split <;> simp [*]

/-- **A reading scans these tokens and no others.** -/
theorem reads_scanned (c : Due g) (p : Parser) :
    p.scanner.Reads (p.scanned c) (p.read c).2.scanner := by
  induction c, p using Parser.read.induct with
  | case1 c p _ later taken | case2 c p _ later taken =>
    rw [scanned_eq, read_eq, taken, scanner_of_advance taken]
    exact .cons (.nil _)
  | case3 c p next later taken ih =>
    rw [scanner_of_advance taken] at ih
    rw [scanned_eq, read_eq, taken]
    exact .cons ih

/-! ### What is answered to a token -/

/-- **What a token does is told by the token and the bound,** up to the offset of an
error. -/
theorem advance_congr {c : Due g} {p q : Parser} (here : p.StandsAt c) (there : q.StandsAt c)
    (bound : q.bound = p.bound) (token : q.scanner.scan.1 = p.scanner.scan.1) :
    (q.advance c).1.mapError ParseError.fault = (p.advance c).1.mapError ParseError.fault := by
  have allowed : q.deepestAllowed = p.deepestAllowed := congrArg Int.toNat bound
  rcases advance_cases here with ⟨beyond, e⟩ | ⟨within, none, e⟩ | ⟨P, within, some, e⟩ <;> rw [e]
  · rw [← token, ← allowed] at beyond
    rw [advance_of_lt there beyond, bound]
    rfl
  · rw [← token, ← allowed] at within
    rw [← token] at none
    rw [advance_of_refused there within none, token]
    rfl
  · rw [← token, ← allowed] at within
    rw [← token] at some
    rw [advance_of_taken there within some]

/-- What a token that is taken does is done by it elsewhere. -/
theorem exists_advance_eq_ok {c : Due g} {p q later : Parser} {P : Progress g}
    (here : p.StandsAt c) (there : q.StandsAt c) (taken : p.advance c = (.ok P, later))
    (bound : q.bound = p.bound) (token : q.scanner.scan.1 = p.scanner.scan.1) :
    ∃ later', q.advance c = (.ok P, later') ∧ later'.scanner = q.scanner.scan.2 ∧
      later'.bound = later.bound := by
  have same := advance_congr here there bound token
  rw [taken] at same
  rcases hq : q.advance c with ⟨e | P', later'⟩ <;> rw [hq] at same <;> cases same
  refine ⟨later', rfl, scanner_of_advance hq, ?_⟩
  rw [bound_of_advance hq, bound, bound_of_advance taken]

/-- A token at fault is at fault elsewhere, and for the same reason. -/
theorem exists_advance_eq_error {c : Due g} {p q later : Parser} {e : ParseError}
    (here : p.StandsAt c) (there : q.StandsAt c) (taken : p.advance c = (.error e, later))
    (bound : q.bound = p.bound) (token : q.scanner.scan.1 = p.scanner.scan.1) :
    ∃ e' later', q.advance c = (.error e', later') ∧ later'.scanner = q.scanner.scan.2 ∧
      e'.fault = e.fault := by
  have same := advance_congr here there bound token
  rw [taken] at same
  rcases hq : q.advance c with ⟨e' | P', later'⟩ <;> rw [hq] at same
  · exact ⟨e', later', rfl, scanner_of_advance hq, Except.error.inj same⟩
  · cases same

/-- **What a reading answers is told by the tokens it scans and the bound,** up to the offset of an
error.  Another parser under the same bound to which these tokens come next scans the same. -/
theorem read_congr {c : Due g} {p q : Parser} {last : Scanner} (here : p.StandsAt c)
    (there : q.StandsAt c) (bound : q.bound = p.bound)
    (tokens : q.scanner.Reads (p.scanned c) last) :
    q.scanned c = p.scanned c ∧ (q.read c).2.scanner = last ∧
      (q.read c).1.mapError ParseError.fault = (p.read c).1.mapError ParseError.fault := by
  induction c, p using Parser.read.induct generalizing q with
  | case1 c p e later taken =>
    have whole : p.scanned c = [p.scanner.scan.1] := by rw [scanned_eq, taken]
    rw [whole] at tokens ⊢
    obtain ⟨token, behind⟩ := Scanner.reads_cons_iff.mp tokens
    obtain ⟨e', later', hq, place, fault⟩ := exists_advance_eq_error here there taken bound token
    rw [scanned_eq, read_eq, read_eq c p, hq, taken, token, Scanner.reads_nil_iff.mp behind]
    exact ⟨rfl, place, congrArg Except.error fault⟩
  | case2 c p T later taken =>
    have whole : p.scanned c = [p.scanner.scan.1] := by rw [scanned_eq, taken]
    rw [whole] at tokens ⊢
    obtain ⟨token, behind⟩ := Scanner.reads_cons_iff.mp tokens
    obtain ⟨later', hq, place, -⟩ := exists_advance_eq_ok here there taken bound token
    rw [scanned_eq, read_eq, read_eq c p, hq, taken, token, Scanner.reads_nil_iff.mp behind]
    exact ⟨rfl, place, rfl⟩
  | case3 c p next later taken ih =>
    have whole : p.scanned c = p.scanner.scan.1 :: later.scanned next := by rw [scanned_eq, taken]
    rw [whole] at tokens ⊢
    obtain ⟨token, behind⟩ := Scanner.reads_cons_iff.mp tokens
    obtain ⟨later', hq, place, bounds⟩ := exists_advance_eq_ok here there taken bound token
    rw [← place] at behind
    obtain ⟨scanned, ends, answer⟩ := ih (here.advance taken) (there.advance hq) bounds behind
    rw [scanned_eq, read_eq, read_eq c p, hq, taken, token]
    exact ⟨congrArg _ scanned, ends, answer⟩

/-! ### How a reading ends -/

/-- What was taken was within the bound. -/
theorem reach_le_of_advance {c : Due g} {p later : Parser} {P : Progress g} (stands : p.StandsAt c)
    (taken : p.advance c = (.ok P, later)) : c.reach p.scanner.scan.1.kind ≤ p.deepestAllowed := by
  rcases advance_cases stands with ⟨-, e⟩ | ⟨-, -, e⟩ | ⟨P', within, -, e⟩ <;>
    cases taken.symm.trans e
  exact within

/-- **A reading that succeeds has scanned a run to its goal.** -/
theorem run_scanned {c : Due g} {p later : Parser} {T : g.Tree} (h : p.read c = (.ok T, later)) :
    (Progress.due c).run (p.scanned c) = some (.done T) := by
  induction c, p using Parser.read.induct with
  | case1 c p e _ taken =>
    rw [read_eq, taken] at h
    cases h
  | case2 c p T' _ taken =>
    rw [read_eq, taken] at h
    cases h
    rw [scanned_eq, taken]
    exact (Progress.Leads.single (next?_of_advance taken)).1
  | case3 c p next _ taken ih =>
    rw [read_eq, taken] at h
    rw [scanned_eq, taken, Progress.run_due_cons, next?_of_advance taken, Option.bind_some]
    exact ih h

/-- **It goes no deeper than the bound.** -/
theorem peak_scanned_le {c : Due g} {p later : Parser} {T : g.Tree} (stands : p.StandsAt c)
    (h : p.read c = (.ok T, later)) : (Progress.due c).peak (p.scanned c) ≤ p.deepestAllowed := by
  induction c, p using Parser.read.induct with
  | case1 c p e _ taken =>
    rw [read_eq, taken] at h
    cases h
  | case2 c p T' _ taken =>
    rw [scanned_eq, taken, (Progress.Leads.single (next?_of_advance taken)).2]
    exact reach_le_of_advance stands taken
  | case3 c p next _ taken ih =>
    rw [read_eq, taken] at h
    have low := ih (stands.advance taken) h
    rw [deepestAllowed_of_advance taken] at low
    rw [scanned_eq, taken, Progress.peak_due_cons, next?_of_advance taken, Option.elim_some]
    exact Nat.max_le.mpr ⟨reach_le_of_advance stands taken, low⟩

/-- **Where a run to the goal comes next, it is what a reading scans,** if the bound has room for it
above the levels that are open outside. -/
theorem read_of_run {c : Due g} {p : Parser} {us : List Token} {last : Scanner} {T : g.Tree}
    (level : c.HasLevel) (opened : c.depth ≤ p.depth) (tokens : p.scanner.Reads us last)
    (run : (Progress.due c).run us = some (.done T))
    (low : p.depth - c.depth + (Progress.due c).peak us ≤ p.deepestAllowed) :
    ∃ later, p.read c = (.ok T, later) ∧ later.scanner = last ∧ later.bound = p.bound := by
  induction us generalizing c p with
  | nil => cases run
  | cons t us ih =>
    obtain ⟨rfl, behind⟩ := Scanner.reads_cons_iff.mp tokens
    obtain ⟨P, some, rest⟩ := Option.bind_eq_some_iff.mp run
    rw [Progress.peak_due_cons, some, Option.elim_some] at low
    have reach := Due.reach_cases level p.scanner.scan.1.kind
    obtain ⟨later, taken, place, same⟩ : ∃ later, p.advance c = (.ok P, later) ∧
        later.scanner = p.scanner.scan.2 ∧ later.bound = p.bound := by
      rcases take_cases c p.scanner.scan.1 p.next.2 with
        ⟨opens, beyond, -⟩ | ⟨-, none, -⟩ | ⟨P', -, some', e⟩
      · have here : p.next.2.depth = p.depth := rfl
        have allowed : p.next.2.deepestAllowed = p.deepestAllowed := rfl
        omega
      · cases none.symm.trans some
      · obtain rfl : P' = P := Option.some.inj (some'.symm.trans some)
        exact ⟨_, e, rfl, rfl⟩
    have depth : later.depth + c.depth = p.depth + P.depth := depth_advance level opened taken
    rw [read_eq, taken]
    cases P with
    | done T' =>
      cases us with
      | nil =>
        cases rest
        exact ⟨later, rfl, place.trans (Scanner.reads_nil_iff.mp behind).symm, same⟩
      | cons => cases rest
    | due next =>
      have allowed : later.deepestAllowed = p.deepestAllowed := congrArg Int.toNat same
      simp only [Progress.depth] at depth
      obtain ⟨end_, whole, ends, bound⟩ := ih (Due.depth_add_closes level some).2 (by omega)
        (place ▸ behind) rest (by omega)
      exact ⟨end_, whole, ends, bound.trans same⟩

/-- **A reading that fails has scanned a run to where something is due and the token at fault,** the
run being no deeper than the bound. -/
theorem fault_of_read {c : Due g} {p later : Parser} {e : ParseError} (stands : p.StandsAt c)
    (h : p.read c = (.error e, later)) :
    ∃ us t d, p.scanned c = us ++ [t] ∧ (Progress.due c).run us = some (.due d) ∧
      (Progress.due c).peak us ≤ p.deepestAllowed ∧ d.Faults p.bound t e.fault := by
  induction c, p using Parser.read.induct with
  | case1 c p e' _ taken =>
    rw [read_eq, taken] at h
    cases h
    refine ⟨[], p.scanner.scan.1, c, ?_, Progress.run_nil _, by simp, ?_⟩
    · rw [scanned_eq, taken]
      rfl
    · rcases advance_cases stands with ⟨beyond, e⟩ | ⟨-, none, e⟩ | ⟨P, -, -, e⟩ <;>
        cases taken.symm.trans e
      · exact .tooDeep beyond
      · exact .refused none
  | case2 c p T _ taken =>
    rw [read_eq, taken] at h
    cases h
  | case3 c p next _ taken ih =>
    rw [read_eq, taken] at h
    have within := reach_le_of_advance stands taken
    obtain ⟨us, t, d, scanned, run, low, faults⟩ := ih (stands.advance taken) h
    obtain ⟨run, level⟩ := Progress.Leads.cons (next?_of_advance taken) ⟨run, rfl⟩
    rw [deepestAllowed_of_advance taken] at low
    rw [bound_of_advance taken] at faults
    refine ⟨p.scanner.scan.1 :: us, t, d, ?_, run, ?_, faults⟩
    · rw [scanned_eq, taken]
      exact congrArg _ scanned
    · rw [level]
      exact Nat.max_le.mpr ⟨within, low⟩

end Parser
end Typographical
