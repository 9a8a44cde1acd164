/-
# Which texts are formulas, and what is wrong with the others

`Formula.parse_eq_ok_iff` is the meaning of a successful reading: the tokens of
the text derive the formula, at a level within the bound.

A text that is no formula is blamed on the earliest token that can be blamed.
`Verdict` lists what can be said about a list of tokens by the grammar alone: it
is a formula, it goes on behind one, it breaks off, or some token ends all hope
of a formula, as no symbol at all or as one in the wrong place.  Exactly one of
these can be said (`Verdict.Holds.unique`), and unless the text nests too deep it
is what the reading answers (`Formula.parse_answers`).
-/

import Typographical.Proofs.Outcome

namespace Typographical

/-! ### Acceptance -/

/-- No character of no symbol is ever taken. -/
theorem Progress.ne_illegal_of_run {g : Goal} {P Q : Progress g} {us : List Token}
    (run : P.run us = some Q) : ∀ t ∈ us, t.kind ≠ .illegal := by
  intro t ht
  exact (TokenKind.ne_of_isStop_eq_false (Progress.isStop_of_run run t ht)).1

/-- A text that is accepted derives what is given. -/
theorem Formula.Outcome.derives {source : String} {bound : Nat} {F : Formula}
    (outcome : Formula.Outcome source bound (.ok F)) :
    (∀ t ∈ tokenize source, t.kind ≠ .illegal) ∧
      ∃ level, level ≤ bound ∧ DerivesFormula (tokenize source) F level := by
  cases outcome with
  | @accepted us last F reads run allowed ends =>
    obtain ⟨l, derives⟩ := exists_derives_of_run_start run
    rcases reads.tokenize_cases run with ⟨-, tokens⟩ | ⟨goesOn, -⟩
    · rw [tokens]
      rw [derives.leads_start.2] at allowed
      exact ⟨Progress.ne_illegal_of_run run, l, allowed, derives⟩
    · exact absurd ends goesOn

/-- **A text whose tokens derive a formula is accepted, or is too deep where the bound is below the
level.**  The other ways to end leave tokens of the text untaken, and a derivation takes all of
them. -/
theorem Formula.Outcome.eq_of_derives {source : String} {bound l : Nat} {F : Formula}
    {r : Except ParseError Formula} (outcome : Formula.Outcome source bound r)
    (derives : DerivesFormula (tokenize source) F l) :
    l ≤ bound ∧ r = .ok F ∨
      bound < l ∧ ∃ position, r = .error ⟨.nestingTooDeep bound, position⟩ := by
  obtain ⟨whole, level⟩ := derives.leads_start
  cases outcome with
  | @accepted us last G reads run allowed ends =>
    rcases reads.tokenize_cases run with ⟨-, tokens⟩ | ⟨goesOn, -⟩
    · rw [tokens] at whole level
      rw [run] at whole
      cases whole
      exact .inl ⟨level ▸ allowed, rfl⟩
    · exact absurd ends goesOn
  | @trailing us last G reads run goesOn =>
    rcases reads.tokenize_cases run with ⟨ends, -⟩ | ⟨-, rest, tokens⟩
    · exact absurd ends goesOn
    · rw [tokens] at whole
      cases (Progress.eq_nil_of_run_append run whole).1
  | @refused us last d reads run none =>
    rcases reads.tokenize_cases run with ⟨-, tokens⟩ | ⟨-, rest, tokens⟩
    · rw [tokens, run] at whole
      cases whole
    · rw [tokens, Progress.run_append, run, Option.bind_some, Progress.run_due_cons, none] at whole
      cases whole
  | @tooDeep us last d reads run beyond =>
    rcases reads.tokenize_cases run with ⟨-, tokens⟩ | ⟨-, rest, tokens⟩
    · rw [tokens, run] at whole
      cases whole
    · -- the token that is too deep counts in the level of the derivation
      rw [tokens, Progress.peak_append run, Progress.peak_due_cons] at level
      exact .inr ⟨by omega, _, rfl⟩

theorem Formula.Outcome.eq_ok {source : String} {bound l : Nat} {F : Formula}
    {r : Except ParseError Formula} (outcome : Formula.Outcome source bound r)
    (derives : DerivesFormula (tokenize source) F l) (hl : l ≤ bound) : r = .ok F := by
  rcases outcome.eq_of_derives derives with ⟨-, accepted⟩ | ⟨beyond, -⟩
  · exact accepted
  · omega

/-- **A reading gives a formula exactly when the tokens derive it within the bound.**  A level is
at least one, so under the bound zero nothing is read. -/
theorem Formula.parse_eq_ok_iff (source : String) (bound : Nat) (F : Formula) :
    Formula.parse source bound = .ok F ↔
      (∀ t ∈ tokenize source, t.kind ≠ .illegal) ∧
        ∃ level, level ≤ bound ∧ DerivesFormula (tokenize source) F level := by
  have outcome := Formula.outcome_parse source bound
  constructor
  · intro h
    rw [h] at outcome
    exact outcome.derives
  · rintro ⟨-, l, hl, derives⟩
    exact outcome.eq_ok derives hl

/-! ### Verdicts -/

/-- What can be said about a list of tokens; the number is that of the token to blame, counted
from zero. -/
inductive Verdict
  | formula
  | trailing (k : Nat)
  | unfinished
  | illegal (k : Nat)
  | misplaced (k : Nat)
deriving DecidableEq, Repr

/-- When it can be said. -/
def Verdict.Holds (ts : List Token) : Verdict → Prop
  | formula => (∀ t ∈ ts, t.kind ≠ .illegal) ∧ IsFormula ts
  | trailing k => k < ts.length ∧ IsFormula (ts.take k)
  | unfinished => (∀ t ∈ ts, t.kind ≠ .illegal) ∧ Viable ts ∧ ¬IsFormula ts
  | illegal k =>
    ∃ t, ts[k]? = some t ∧ t.kind = .illegal ∧ Viable (ts.take k) ∧ ¬IsFormula (ts.take k)
  | misplaced k =>
    ∃ t, ts[k]? = some t ∧ t.kind ≠ .illegal ∧ Viable (ts.take k) ∧ ¬IsFormula (ts.take k) ∧
      ¬Viable (ts.take (k + 1))

/-- Where the token of a text with a number begins: what the scanner remembers once it has read
that token. -/
def tokenOffset (source : String) (k : Nat) : Nat :=
  ((Scanner.ofString source).after (k + 1)).offset

/-- Behind some scans from the start of the text, the next token is the one with their number. -/
theorem Scanner.Reads.tokenOffset_eq {source : String} {us : List Token} {last : Scanner}
    (h : (Scanner.ofString source).Reads us last) :
    tokenOffset source us.length = last.scan.2.offset := by
  rw [h.eq_after]
  rfl

/-- What a reading of the text answers to it. -/
def Verdict.Answered (source : String) (r : Except ParseError Formula) : Verdict → Prop
  | formula => ∃ F level, DerivesFormula (tokenize source) F level ∧ r = .ok F
  | trailing k =>
    ∃ t, (tokenize source)[k]? = some t ∧
      r = .error ⟨.trailingInput t.kind t.text, some (tokenOffset source k)⟩
  | unfinished => ∃ expected, r = .error ⟨.unexpectedEnd expected, some source.length⟩
  | illegal k =>
    ∃ t, (tokenize source)[k]? = some t ∧
      r = .error ⟨.illegalCharacter t.text, some (tokenOffset source k)⟩
  | misplaced k =>
    ∃ t expected, (tokenize source)[k]? = some t ∧
      r = .error ⟨.unexpectedToken expected t.kind t.text, some (tokenOffset source k)⟩

/-! ### Only one verdict holds -/

/-- The first tokens of a list, a given number of them, lead somewhere from the start, and either
they are all or the next one is not taken. -/
structure HaltsAt (ts : List Token) (k : Nat) (P : Progress .formula) : Prop where
  le : k ≤ ts.length
  run : Progress.start.run (ts.take k) = some P
  stops : k = ts.length ∨ Progress.start.run (ts.take (k + 1)) = none

theorem HaltsAt.not_lt {ts : List Token} {k m : Nat} {P Q : Progress .formula}
    (h : HaltsAt ts k P) (h' : HaltsAt ts m Q) : ¬k < m := by
  intro lt
  have le := h'.le
  rcases h.stops with rfl | none
  · omega
  · have run := h'.run
    have beginning : (ts.take m).take (k + 1) = ts.take (k + 1) := by
      rw [List.take_take, Nat.min_eq_left lt]
    rw [← List.take_append_drop (k + 1) (ts.take m), beginning, Progress.run_append, none] at run
    cases run

/-- **A list of tokens halts at one place only.** -/
theorem HaltsAt.unique {ts : List Token} {k m : Nat} {P Q : Progress .formula}
    (h : HaltsAt ts k P) (h' : HaltsAt ts m Q) : k = m ∧ P = Q := by
  obtain rfl : k = m := by
    have := h.not_lt h'
    have := h'.not_lt h
    omega
  exact ⟨rfl, Option.some.inj (h.run.symm.trans h'.run)⟩

/-- The verdict on a list of tokens that halts somewhere. -/
def Verdict.ofHalt (ts : List Token) (k : Nat) : Progress .formula → Verdict
  | .done _ => if k = ts.length then formula else trailing k
  | .due _ =>
    match ts[k]? with
    | none => unfinished
    | some t => if t.kind = .illegal then illegal k else misplaced k

/-- What is viable without being a formula leaves something due. -/
theorem exists_due_of_viable {ts : List Token} (h : Viable ts) (h' : ¬IsFormula ts) :
    ∃ d, Progress.start.run ts = some (.due d) := by
  obtain ⟨P, hP⟩ := viable_iff.mp h
  cases P with
  | due d => exact ⟨d, hP⟩
  | done F => exact absurd (isFormula_iff.mpr ⟨F, hP⟩) h'

theorem run_start_eq_none_of_not_viable {ts : List Token} (h : ¬Viable ts) :
    Progress.start.run ts = none :=
  Option.eq_none_iff_forall_ne_some.mpr fun P hP => h (viable_iff.mpr ⟨P, hP⟩)

/-- Where a token comes in a list, it is the last of the first so many and one more. -/
theorem take_succ_of_getElem? {α : Type} {l : List α} {k : Nat} {a : α} (h : l[k]? = some a) :
    l.take (k + 1) = l.take k ++ [a] := by
  rw [List.take_add_one, h, Option.toList_some]

/-- **What a verdict says shows where the list halts.** -/
theorem Verdict.Holds.exists_halt {ts : List Token} {v : Verdict} (h : v.Holds ts) :
    ∃ k P, HaltsAt ts k P ∧ v = Verdict.ofHalt ts k P := by
  cases v with
  | formula =>
    obtain ⟨F, run⟩ := isFormula_iff.mp h.2
    refine ⟨ts.length, .done F, ⟨Nat.le_refl _, by rwa [List.take_length], .inl rfl⟩, ?_⟩
    rw [ofHalt, if_pos rfl]
  | trailing k =>
    obtain ⟨lt, k_formula⟩ := h
    obtain ⟨F, run⟩ := isFormula_iff.mp k_formula
    have next : ts.take (k + 1) = ts.take k ++ [ts[k]] :=
      take_succ_of_getElem? (List.getElem?_eq_getElem lt)
    refine ⟨k, .done F, ⟨Nat.le_of_lt lt, run, .inr ?_⟩, ?_⟩
    · rw [next, Progress.run_append, run, Option.bind_some, Progress.run_done_cons]
    · rw [ofHalt, if_neg (Nat.ne_of_lt lt)]
  | unfinished =>
    obtain ⟨d, run⟩ := exists_due_of_viable h.2.1 h.2.2
    refine ⟨ts.length, .due d, ⟨Nat.le_refl _, by rwa [List.take_length], .inl rfl⟩, ?_⟩
    rw [ofHalt, List.getElem?_eq_none (Nat.le_refl _)]
  | illegal k =>
    obtain ⟨t, ht, hk, viable, no⟩ := h
    obtain ⟨d, run⟩ := exists_due_of_viable viable no
    refine ⟨k, .due d, ⟨?_, run, .inr ?_⟩, ?_⟩
    · exact Nat.le_of_lt (List.getElem?_eq_some_iff.mp ht).1
    · rw [take_succ_of_getElem? ht, Progress.run_append, run, Option.bind_some,
        Progress.run_due_cons]
      cases next : d.next? t with
      | none => rfl
      | some P =>
        have goesOn := Due.isStop_of_next? next
        rw [hk] at goesOn
        cases goesOn
    · simp only [ofHalt, ht, hk, if_true]
  | misplaced k =>
    obtain ⟨t, ht, hk, viable, no, hopeless⟩ := h
    obtain ⟨d, run⟩ := exists_due_of_viable viable no
    refine ⟨k, .due d, ⟨?_, run, .inr (run_start_eq_none_of_not_viable hopeless)⟩, ?_⟩
    · exact Nat.le_of_lt (List.getElem?_eq_some_iff.mp ht).1
    · simp only [ofHalt, ht, hk, if_false]

/-- **Of two verdicts that hold, each is the other.** -/
theorem Verdict.Holds.unique {ts : List Token} {v w : Verdict} (h : v.Holds ts)
    (k : w.Holds ts) : v = w := by
  obtain ⟨n, P, halt, rfl⟩ := h.exists_halt
  obtain ⟨m, Q, halt', rfl⟩ := k.exists_halt
  obtain ⟨rfl, rfl⟩ := halt.unique halt'
  rfl

/-! ### The verdict that is answered -/

/-- Tokens that leave something due are viable, and no formula. -/
theorem viable_of_run_due {ts : List Token} {d : Due .formula}
    (run : Progress.start.run ts = some (.due d)) : Viable ts ∧ ¬IsFormula ts := by
  refine ⟨viable_iff.mpr ⟨_, run⟩, fun h => ?_⟩
  obtain ⟨F, done⟩ := isFormula_iff.mp h
  cases run.symm.trans done

/-- **Some verdict holds and is answered.** -/
theorem Formula.Outcome.exists_verdict {source : String} {bound : Nat}
    {r : Except ParseError Formula} (outcome : Formula.Outcome source bound r)
    (fits : ∀ position, r ≠ .error ⟨.nestingTooDeep bound, position⟩) :
    ∃ v : Verdict, v.Holds (tokenize source) ∧ v.Answered source r := by
  cases outcome with
  | @accepted us last F reads run allowed ends =>
    rcases reads.tokenize_cases run with ⟨-, tokens⟩ | ⟨goesOn, -⟩
    · obtain ⟨l, derives⟩ := exists_derives_of_run_start run
      rw [← tokens] at run derives
      exact ⟨.formula, ⟨Progress.ne_illegal_of_run run, F, l, derives⟩, F, l, derives, rfl⟩
    · exact absurd ends goesOn
  | @trailing us last F reads run goesOn =>
    rcases reads.tokenize_cases run with ⟨ends, -⟩ | ⟨-, rest, tokens⟩
    · exact absurd ends goesOn
    · refine ⟨.trailing us.length, ⟨?_, ?_⟩, last.scan.1, ?_, ?_⟩
      · simp [tokens]
      · rw [tokens, List.take_left]
        exact isFormula_iff.mpr ⟨F, run⟩
      · simp [tokens]
      · rw [reads.tokenOffset_eq]
  | @refused us last d reads run none =>
    obtain ⟨viable, no⟩ := viable_of_run_due run
    rcases reads.tokenize_cases run with ⟨ends, tokens⟩ | ⟨goesOn, rest, tokens⟩
    · refine ⟨.unfinished, ⟨?_, ?_⟩, d.wording, ?_⟩
      · rw [tokens]
        exact Progress.ne_illegal_of_run run
      · rw [tokens]
        exact ⟨viable, no⟩
      · rw [reads.offset_of_endOfText ends, ParseFault.ofToken, ends]
    · have at_fault : (tokenize source)[us.length]? = some last.scan.1 := by simp [tokens]
      have before : (tokenize source).take us.length = us := by rw [tokens, List.take_left]
      have place : last.scan.2.offset = tokenOffset source us.length := reads.tokenOffset_eq.symm
      by_cases illegal : last.scan.1.kind = .illegal
      · refine ⟨.illegal us.length, ⟨_, at_fault, illegal, ?_⟩, _, at_fault, ?_⟩
        · rw [before]
          exact ⟨viable, no⟩
        · rw [place, ParseFault.ofToken, illegal]
      · refine ⟨.misplaced us.length, ⟨_, at_fault, illegal, ?_, ?_, ?_⟩, _, d.wording, at_fault,
          ?_⟩
        · rwa [before]
        · rwa [before]
        · rw [take_succ_of_getElem? at_fault, before]
          intro viable
          obtain ⟨P, hP⟩ := viable_iff.mp viable
          rw [Progress.run_append, run, Option.bind_some, Progress.run_due_cons, none] at hP
          cases hP
        · rw [place]
          unfold ParseFault.ofToken
          split <;> trivial
  | tooDeep reads run beyond => exact absurd rfl (fits _)

/-- **Exactly one verdict holds of the tokens, and it is what a reading answers** that does not
nest too deep.  That no formula goes on as another is what sets a token behind a formula apart from
a token inside one. -/
theorem Formula.parse_answers (source : String) (bound : Nat)
    (fits : Formula.FitsBound source bound) :
    (∃ v : Verdict, v.Holds (tokenize source) ∧ (∀ w : Verdict, w.Holds (tokenize source) → w = v) ∧
        v.Answered source (Formula.parse source bound)) ∧
      ∀ us vs F G l m, DerivesFormula us F l → DerivesFormula (us ++ vs) G m → vs = [] := by
  refine ⟨?_, fun us vs F G l m h k => h.eq_nil_of_append k⟩
  obtain ⟨v, holds, answered⟩ := (Formula.outcome_parse source bound).exists_verdict fits
  exact ⟨v, holds, fun w hw => hw.unique holds, answered⟩

/-- The hypothesis is met where something is wrong: a formula is broken off by a character that is
no symbol.  That is what can be said of the tokens, and nothing else, and it is answered with the
character and its offset. -/
theorem Formula.parse_answers_illegal :
    Formula.FitsBound "<0=0_" 4 ∧
      (Verdict.illegal 4).Holds (tokenize "<0=0_") ∧
      (∀ w : Verdict, w.Holds (tokenize "<0=0_") → w = .illegal 4) ∧
      (Verdict.illegal 4).Answered "<0=0_" (Formula.parse "<0=0_" 4) ∧
      Formula.parse "<0=0_" 4 = .error ⟨.illegalCharacter "_", some 4⟩ := by
  have answer : Formula.parse "<0=0_" 4 = .error ⟨.illegalCharacter "_", some 4⟩ := by cbv
  have fits : Formula.FitsBound "<0=0_" 4 := by
    intro position h
    cases answer.symm.trans h
  have tokens : tokenize "<0=0_" = [⟨.openAngle, "<"⟩, ⟨.zero, "0"⟩, ⟨.equals, "="⟩, ⟨.zero, "0"⟩,
      ⟨.illegal, "_"⟩] := by
    cbv
  have holds : (Verdict.illegal 4).Holds (tokenize "<0=0_") := by
    rw [tokens]
    exact ⟨⟨.illegal, "_"⟩, rfl, rfl, viable_of_run_due rfl⟩
  obtain ⟨⟨v, -, unique, answered⟩, -⟩ := Formula.parse_answers "<0=0_" 4 fits
  obtain rfl := unique _ holds
  exact ⟨fits, holds, unique, answered, answer⟩

end Typographical
