/-
# Readings end, whatever the bound

No bound is needed for a reading to end.  A stop is never taken, so a token that is taken
shortens what is left to read, and going from one token to the next is well-founded
(`Parser.wellFounded_follows`).  A reading scans at most one token more than there are
characters left (`Parser.length_scanned_le`), and one that succeeds has moved on
(`Parser.pos_lt_of_read`).

In reading a whole text only the last scan may come upon a stop
(`Parser.exists_scannedToEnd_eq`).  Levels are paid for by scans: how deep the next token
may lead, `Due.ceiling`, grows with a token by one level at most
(`Due.ceiling_next?_le`), so the levels are never more than the scans and one
(`Parser.PaysFor.of_trail`).
-/

import Typographical.Proofs.Call
import Typographical.Proofs.Part

namespace Typographical

/-! ### Levels are paid for by scans -/

/-- How deep the next token may lead.  Where a formula is due that is the term it may begin with, and
where a sign is due the part behind the sign. -/
def Due.ceiling {g : Goal} : Due g → Nat
  | formula K => K.level + 1
  | connective _ K => K.level + 1
  | closeAngle _ _ _ K => K.level + 1
  | boundVariable _ K => K.level + 1
  | colon _ _ K => K.level + 1
  | equals _ K => K.level + 1
  | term K => K.level
  | operation _ K => K.level + 1
  | closeParen _ _ _ K => K.level + 1

/-- The ceiling of what is due; none is left once the goal is met. -/
def Progress.ceiling {g : Goal} : Progress g → Nat
  | due c => c.ceiling
  | done _ => 0

/-- No token takes a reading beyond the ceiling. -/
theorem Due.reach_le_ceiling {g : Goal} (c : Due g) (k : TokenKind) : c.reach k ≤ c.ceiling := by
  cases c with
  | formula K =>
    simp only [reach, ceiling]
    split <;> omega
  | term K => exact Nat.le_refl _
  | _ => exact Nat.zero_le _

theorem FormulaContext.ceiling_fill_le (K : FormulaContext) (F : Formula) :
    (K.fill F).ceiling ≤ K.level + 1 := by
  induction K generalizing F with
  | outermost level => exact Nat.zero_le _
  | negation K ih => exact Nat.le_succ_of_le (ih _)
  | compoundLeft K ih => exact Nat.le_succ _
  | compoundRight G c K ih => exact Nat.le_succ _
  | quantified q v K ih => exact Nat.le_succ_of_le (ih _)

theorem TermContext.ceiling_fill_le {g : Goal} (K : TermContext g) (t : Term) :
    (K.fill t).ceiling ≤ K.level := by
  induction K generalizing t with
  | outermost level => exact Nat.zero_le _
  | atomLeft K => exact Nat.le_refl _
  | atomRight x K => exact K.ceiling_fill_le _
  | successor q K ih => exact Nat.le_succ_of_le (ih _)
  | operandLeft K ih => exact Nat.le_refl _
  | operandRight x op K ih => exact Nat.le_refl _

theorem TermContext.ceiling_next?_le {g : Goal} {K : TermContext g} {t : Token} {P : Progress g}
    (h : K.next? t = some P) : P.ceiling ≤ K.level + 1 := by
  obtain ⟨kind, s⟩ := t
  cases kind <;> simp only [TermContext.next?, Option.some.injEq, reduceCtorEq] at h <;> subst h
  case zero => exact Nat.le_succ_of_le (K.ceiling_fill_le _)
  case variableName => exact Nat.le_succ_of_le (K.ceiling_fill_le _)
  all_goals exact Nat.le_refl _

/-- **A token raises the ceiling by one level at most.** -/
theorem Due.ceiling_next?_le {g : Goal} {c : Due g} {t : Token} {P : Progress g}
    (h : c.next? t = some P) : P.ceiling ≤ c.ceiling + 1 := by
  cases c with
  | formula K =>
    cases hb : t.kind.beginsConstruct with
    | false =>
      rw [Due.next?_formula_of_beginsConstruct hb] at h
      exact TermContext.ceiling_next?_le (K := .atomLeft K) h
    | true =>
      have opened : P.ceiling ≤ K.level + 2 := by
        obtain ⟨kind, s⟩ := t
        cases kind <;> cases hb <;> cases h <;>
          simp only [Progress.ceiling, Due.ceiling, FormulaContext.level] <;> omega
      exact opened
  | connective F K =>
    obtain ⟨c, -, rfl⟩ := Option.map_eq_some_iff.mp h
    exact Nat.le_refl _
  | closeAngle F c G K =>
    obtain ⟨-, rfl⟩ : t.kind = .closeAngle ∧ K.fill (.compound c F G) = P := by
      simpa [Due.next?] using h
    exact Nat.le_succ_of_le (K.ceiling_fill_le _)
  | boundVariable q K =>
    obtain ⟨-, rfl⟩ : t.kind = .variableName ∧ .due (.colon q ⟨t.text⟩ K) = P := by
      simpa [Due.next?] using h
    exact Nat.le_succ _
  | colon q v K =>
    obtain ⟨-, rfl⟩ : t.kind = .colon ∧ .due (.formula (.quantified q v K)) = P := by
      simpa [Due.next?] using h
    exact Nat.le_refl _
  | equals x K =>
    obtain ⟨-, rfl⟩ : t.kind = .equals ∧ .due (.term (.atomRight x K)) = P := by
      simpa [Due.next?] using h
    exact Nat.le_succ _
  | term K => exact TermContext.ceiling_next?_le h
  | operation x K =>
    obtain ⟨op, -, rfl⟩ := Option.map_eq_some_iff.mp h
    exact Nat.le_succ _
  | closeParen x op y K =>
    obtain ⟨-, rfl⟩ : t.kind = .closeParen ∧ K.fill (.compound op x y) = P := by
      simpa [Due.next?] using h
    exact Nat.le_succ_of_le (Nat.le_succ_of_le (K.ceiling_fill_le _))

namespace Parser

variable {g : Goal} {c : Due g} {p q later : Parser}

/-! ### Going from one token to the next -/

/-- The one reading is what is left of the other behind a token that it takes. -/
def Follows (after before : Due g × Parser) : Prop :=
  before.2.advance before.1 = (.ok (.due after.1), after.2)

/-- **Readings go on over a well-founded relation,** whatever their bounds: what is left to read
gets shorter. -/
theorem wellFounded_follows : WellFounded (Follows (g := g)) :=
  Subrelation.wf rest_advance_lt (measure fun x : Due g × Parser => x.2.scanner.rest.length).wf

/-- **A reading scans at most one token more than there are characters left.** -/
theorem length_scanned_le (c : Due g) (p : Parser) :
    (p.scanned c).length ≤ p.scanner.rest.length + 1 := by
  induction c, p using Parser.read.induct with
  | case1 c p _ later taken | case2 c p _ later taken =>
    rw [scanned_eq, taken]
    exact Nat.le_add_left ..
  | case3 c p next later taken ih =>
    have shorter := rest_advance_lt taken
    rw [scanned_eq, taken, List.length_cons]
    omega

/-- **A reading that succeeds has shortened what is left to read.** -/
theorem rest_read_lt {T : g.Tree} (h : p.read c = (.ok T, later)) :
    later.scanner.rest.length < p.scanner.rest.length := by
  induction c, p using Parser.read.induct with
  | case1 c p _ _ taken =>
    rw [read_eq, taken] at h
    cases h
  | case2 c p _ _ taken =>
    rw [read_eq, taken] at h
    cases h
    exact rest_advance_lt taken
  | case3 c p next _ taken ih =>
    rw [read_eq, taken] at h
    exact Nat.lt_trans (ih h) (rest_advance_lt taken)

/-- **A reading that succeeds has moved on.** -/
theorem pos_lt_of_read {T : g.Tree} (h : p.read c = (.ok T, later)) :
    p.scanner.pos < later.scanner.pos := by
  have shorter := rest_read_lt h
  have reads := reads_scanned c p
  rw [h] at reads
  have whole : later.scanner.pos + later.scanner.rest.length =
      p.scanner.pos + p.scanner.rest.length := reads.pos_add_length
  omega

/-! ### Going on from a token that has been scanned -/

/-- The tokens that reading on from a scanned token scans. -/
def scannedFrom (c : Due g) (t : Token) (p : Parser) : List Token :=
  match p.take c t with
  | (.ok (.due next), later) => later.scanned next
  | _ => []

/-- Putting a token that has been scanned to a reading leaves the scanner where it is. -/
theorem scanner_take (c : Due g) (t : Token) (p : Parser) :
    (p.take c t).2.scanner = p.scanner := by
  rcases take_cases c t p with ⟨-, -, e⟩ | ⟨-, -, e⟩ | ⟨P, -, -, e⟩ <;> rw [e]

/-- **Reading on from a scanned token scans these tokens,** and no more than the reading would that
scans the token itself. -/
theorem reads_scannedFrom (c : Due g) (t : Token) (p : Parser) :
    p.scanner.Reads (p.scannedFrom c t) (p.readFrom c t).2.scanner ∧
      (p.scannedFrom c t).length ≤ p.scanner.rest.length + 1 := by
  have place := scanner_take c t p
  unfold scannedFrom readFrom
  rcases taken : p.take c t with ⟨e | next | T, later⟩ <;> rw [taken] at place <;> rw [← place]
  · exact ⟨.nil _, Nat.zero_le _⟩
  · exact ⟨reads_scanned next later, length_scanned_le next later⟩
  · exact ⟨.nil _, Nat.zero_le _⟩

/-! ### A formula and the end of the text -/

/-- **Only the last token that a reading scans may be a stop.** -/
theorem exists_scanned_eq (c : Due g) (p : Parser) :
    ∃ us t, p.scanned c = us ++ [t] ∧ ∀ u ∈ us, u.kind.isStop = false := by
  induction c, p using Parser.read.induct with
  | case1 c p _ later taken | case2 c p _ later taken =>
    exact ⟨[], p.scanner.scan.1, by rw [scanned_eq, taken]; rfl, List.forall_mem_nil _⟩
  | case3 c p next later taken ih =>
    obtain ⟨us, t, behind, goesOn⟩ := ih
    have first := Due.isStop_of_next? (next?_of_advance taken)
    refine ⟨p.scanner.scan.1 :: us, t, ?_, List.forall_mem_cons.mpr ⟨first, goesOn⟩⟩
    rw [scanned_eq, taken]
    exact congrArg _ behind

/-- The tokens that are scanned in reading a formula and then the end of the text. -/
def scannedToEnd (p : Parser) : List Token :=
  p.scanned (.formula (.outermost 1)) ++
    match p.formula with
    | (.error _, _) => []
    | (.ok _, later) => [later.scanner.scan.1]

/-- **These tokens are scanned, and no others.** -/
theorem reads_scannedToEnd (p : Parser) :
    p.scanner.Reads p.scannedToEnd p.formulaAndEnd.2.scanner := by
  have reads : p.scanner.Reads _ p.formula.2.scanner := reads_scanned (.formula (.outermost 1)) p
  rw [formulaAndEnd_snd, scannedToEnd]
  rcases hp : p.formula with ⟨e | F, later⟩ <;> rw [hp] at reads
  · rw [List.append_nil]
    exact reads
  · exact reads.snoc

/-- **No scan is made behind a stop.** -/
theorem exists_scannedToEnd_eq (p : Parser) :
    ∃ us t, p.scannedToEnd = us ++ [t] ∧ ∀ u ∈ us, u.kind.isStop = false := by
  rw [scannedToEnd]
  rcases hp : p.formula with ⟨e | F, later⟩
  · rw [List.append_nil]
    exact exists_scanned_eq _ p
  · exact ⟨_, _, rfl, Progress.isStop_of_run (run_scanned hp)⟩

/-- **There are no more scans than tokens and one for the end of the text.** -/
theorem length_scannedToEnd_le (source : String) (bound : Int) :
    (ofString source bound).scannedToEnd.length ≤ (tokenize source).length + 1 := by
  have reads := reads_scannedToEnd (ofString source bound)
  obtain ⟨us, t, whole, goesOn⟩ := exists_scannedToEnd_eq (ofString source bound)
  rw [whole] at reads ⊢
  obtain ⟨mid, taken, -⟩ := reads.exists_scan
  have tokens : tokenize source = us ++ mid.drain.1 := taken.drain_fst goesOn
  rw [tokens, List.length_append, List.length_append, List.length_singleton]
  omega

/-! ### Levels -/

/-- The parser after each scan in reading a formula and then the end of the text. -/
def trailToEnd (p : Parser) : List Parser :=
  p.trail (.formula (.outermost 1)) ++
    match p.formula with
    | (.error _, _) => []
    | (.ok _, later) => [later.expectEnd.2]

/-- A reading leaves a parser behind every scan. -/
theorem length_trail (c : Due g) (p : Parser) : (p.trail c).length = (p.scanned c).length := by
  induction c, p using Parser.read.induct with
  | case1 c p _ later taken | case2 c p _ later taken =>
    rw [trail_eq, scanned_eq, taken]
    rfl
  | case3 c p next later taken ih =>
    rw [trail_eq, scanned_eq, taken, List.length_cons, List.length_cons, ih]

theorem length_trailToEnd (p : Parser) : p.trailToEnd.length = p.scannedToEnd.length := by
  rw [trailToEnd, scannedToEnd, List.length_append, List.length_append, length_trail]
  rcases p.formula with ⟨e | F, later⟩ <;> rfl

/-- The last of these parsers is the one that is left. -/
theorem getLast?_trailToEnd (p : Parser) : p.trailToEnd.getLast? = some p.formulaAndEnd.2 := by
  have last : _ = some p.formula.2 := getLast?_trail (.formula (.outermost 1)) p
  rw [trailToEnd, formulaAndEnd_snd]
  rcases hp : p.formula with ⟨e | F, later⟩ <;> rw [hp] at last
  · rw [List.append_nil]
    exact last
  · rw [List.getLast?_concat, expectEnd_snd]

/-- What holds of a parser after so many scans: they were made from the given scanner, no more
levels are open than were entered, and the deepest is at most one more than there were scans. -/
structure PaysFor (start : Scanner) (scans : Nat) (q : Parser) : Prop where
  scanner_eq : q.scanner = start.after scans
  depth_le : q.depth ≤ q.deepest
  deepest_le : q.deepest ≤ scans + 1

variable {start : Scanner} {n : Nat}

/-- **A scan pays for the level that the token opens.** -/
theorem PaysFor.advance {r : Except ParseError (Progress g)} (h : p.PaysFor start n)
    (stands : p.StandsAt c) (low : c.ceiling ≤ n + 2) (taken : p.advance c = (r, later)) :
    later.PaysFor start (n + 1) := by
  have reach := c.reach_le_ceiling p.scanner.scan.1.kind
  have deepest := h.deepest_le
  have opened := stands.depth_le_deepest
  rw [stands.depth_eq] at opened
  have place : p.scanner.scan.2 = start.after (n + 1) := by
    rw [h.scanner_eq]
    rfl
  rcases advance_cases stands with ⟨beyond, e⟩ | ⟨within, -, e⟩ | ⟨P, within, some, e⟩ <;>
    cases taken.symm.trans e <;> refine ⟨place, ?_, ?_⟩ <;> simp only [left]
  · exact Nat.zero_le _
  · omega
  · exact Nat.zero_le _
  · omega
  · have depth : P.depth ≤ _ := Due.depth_next?_le stands.hasLevel some
    omega
  · omega

/-- **At every moment of a reading the levels are at most one more than the scans.** -/
theorem PaysFor.of_trail (h : p.PaysFor start n) (stands : p.StandsAt c)
    (low : c.ceiling ≤ n + 2) {k : Nat} (made : (p.trail c)[k]? = some q) :
    q.PaysFor start (n + k + 1) := by
  induction c, p using Parser.read.induct generalizing n k with
  | case1 c p _ later taken | case2 c p _ later taken =>
    rw [trail_eq, taken] at made
    cases k with
    | zero =>
      cases made
      exact h.advance stands low taken
    | succ k => cases made
  | case3 c p next later taken ih =>
    rw [trail_eq, taken] at made
    have behind := h.advance stands low taken
    cases k with
    | zero =>
      cases made
      exact behind
    | succ k =>
      have ceiling : next.ceiling ≤ _ := Due.ceiling_next?_le (next?_of_advance taken)
      have later := ih behind (stands.advance taken) (by omega) made
      rwa [Nat.add_right_comm n 1] at later

/-- One scan more pays for nothing that is not open already. -/
theorem PaysFor.next (h : p.PaysFor start n) : p.next.2.PaysFor start (n + 1) where
  scanner_eq := congrArg (fun s => s.scan.2) h.scanner_eq
  depth_le := h.depth_le
  deepest_le := Nat.le_succ_of_le h.deepest_le

/-- A formula at the start of a text is at level one, and a term in its place one level deeper. -/
theorem paysFor_of_trail_ofString {source : String} {bound : Int} {k : Nat}
    (made : ((ofString source bound).trail (.formula (.outermost 1)))[k]? = some q) :
    q.PaysFor (Scanner.ofString source) (k + 1) := by
  have fresh : (ofString source bound).PaysFor (Scanner.ofString source) 0 :=
    ⟨rfl, Nat.le_refl 0, Nat.zero_le 1⟩
  have paid := fresh.of_trail (standsAt_ofString source bound) (Nat.le_refl 2) made
  rwa [Nat.zero_add] at paid

/-- **At every moment of reading a formula and the end of the text the levels are at most one more
than the scans.** -/
theorem paysFor_of_trailToEnd {source : String} {bound : Int} {k : Nat}
    (made : (ofString source bound).trailToEnd[k]? = some q) :
    q.PaysFor (Scanner.ofString source) (k + 1) := by
  have ends := getLast?_trail (.formula (.outermost 1)) (ofString source bound)
  have scans := length_trail (.formula (.outermost 1)) (ofString source bound)
  obtain ⟨us, t, whole, -⟩ := exists_scanned_eq (.formula (.outermost 1)) (ofString source bound)
  rw [whole, List.length_append, List.length_singleton] at scans
  rw [List.getLast?_eq_getElem?, scans, Nat.add_sub_cancel] at ends
  have last : (ofString source bound).formula.2.PaysFor _ _ := paysFor_of_trail_ofString ends
  rw [trailToEnd] at made
  rcases Nat.lt_or_ge k (us.length + 1) with inside | behind
  · rw [List.getElem?_append_left (by omega)] at made
    exact paysFor_of_trail_ofString made
  · rw [List.getElem?_append_right (by omega), scans] at made
    rcases hp : (ofString source bound).formula with ⟨e | F, later⟩ <;> rw [hp] at made last
    · cases made
    · rw [List.getElem?_singleton] at made
      split at made
      · next only =>
        obtain rfl : k = us.length + 1 := by omega
        rw [← Option.some.inj made, expectEnd_snd]
        exact last.next
      · cases made

/-- **A reading ends and moves on, whatever the bound.**  Going from one token to the next is
well-founded, since what is left to read gets shorter, so every reading scans at most one token more
than there are characters left, from its own first token or from one that was scanned before; and a
reading that succeeds ends further on in the text.  In reading a text as a formula and its end no
scan is made behind a stop, and there are at most as many as tokens and one for the end; and at
every moment the levels are at most one more than the scans that were made. -/
theorem reading_ends :
    (∀ g : Goal, WellFounded (Follows (g := g)) ∧
      (∀ after before : Due g × Parser, Follows after before →
        after.2.scanner.rest.length < before.2.scanner.rest.length) ∧
      ∀ (c : Due g) (p : Parser),
        (p.scanner.Reads (p.scanned c) (p.read c).2.scanner ∧
          (p.scanned c).length ≤ p.scanner.rest.length + 1) ∧
        (∀ t, p.scanner.Reads (p.scannedFrom c t) (p.readFrom c t).2.scanner ∧
          (p.scannedFrom c t).length ≤ p.scanner.rest.length + 1) ∧
        ∀ T later, p.read c = (.ok T, later) → p.scanner.pos < later.scanner.pos) ∧
    ∀ (source : String) (bound : Int),
      (ofString source bound).scanner.Reads (ofString source bound).scannedToEnd
        (ofString source bound).formulaAndEnd.2.scanner ∧
      (∃ us t, (ofString source bound).scannedToEnd = us ++ [t] ∧
        ∀ u ∈ us, u.kind.isStop = false) ∧
      (ofString source bound).scannedToEnd.length ≤ (tokenize source).length + 1 ∧
      (ofString source bound).trailToEnd.length = (ofString source bound).scannedToEnd.length ∧
      (ofString source bound).trailToEnd.getLast? = some (ofString source bound).formulaAndEnd.2 ∧
      ∀ (k : Nat) (q : Parser), (ofString source bound).trailToEnd[k]? = some q →
        q.PaysFor (Scanner.ofString source) (k + 1) := by
  refine ⟨fun g => ⟨wellFounded_follows, fun _ _ => rest_advance_lt, fun c p => ?_⟩,
    fun source bound => ?_⟩
  · exact ⟨⟨reads_scanned c p, length_scanned_le c p⟩, fun t => reads_scannedFrom c t p,
      fun T later => pos_lt_of_read⟩
  · exact ⟨reads_scannedToEnd _, exists_scannedToEnd_eq _, length_scannedToEnd_le source bound,
      length_trailToEnd _, getLast?_trailToEnd _, fun k q => paysFor_of_trailToEnd⟩

/-- An equation and its left side are two levels behind one scan, and the end is asked for once. -/
example : (ofString "0=S0" 9).trailToEnd.map deepest = [2, 2, 2, 3, 3] := by cbv

end Parser
end Typographical
