/-
# What has been read

A reading knows only what is due and what waits for it, but that tells which
tokens it has taken, up to their spelling: `Progress.Reached` says that a list of
tokens is one that leads there.  Taking a token keeps it (`Due.Reached.next?`),
so a run ends with a derivation of the tree it gives (`Progress.Reached.run`).

Any reading can be brought to its end (`Due.completable`).  Together with the
runs of derivations this settles what runs from the start mean: a list of tokens
derives a formula exactly when it leads to the goal (`isFormula_iff`), and can be
continued to one exactly when it leads anywhere (`viable_iff`).
-/

import Typographical.Proofs.Run

namespace Typographical

/-- The tokens derive the tree that meets the goal. -/
def Goal.Derives : (g : Goal) → List Token → g.Tree → Nat → Prop
  | .formula => DerivesFormula
  | .term => DerivesTerm

/-- The tokens are those of the constructs around a hole for a formula, as far as the hole. -/
inductive FormulaContext.Opened : FormulaContext → List Token → Prop
  | outermost (level : Nat) : Opened (.outermost level) []
  | negation {K : FormulaContext} {us : List Token} (s : String) (h : Opened K us) :
      Opened (.negation K) (us ++ [⟨.negation, s⟩])
  | compoundLeft {K : FormulaContext} {us : List Token} (s : String) (h : Opened K us) :
      Opened (.compoundLeft K) (us ++ [⟨.openAngle, s⟩])
  | compoundRight {K : FormulaContext} {us fs : List Token} {F : Formula} {l : Nat}
      (c : Connective) (a s : String) (h : Opened K us) (hF : DerivesFormula fs F l) :
      Opened (.compoundRight F c K) (us ++ ⟨.openAngle, a⟩ :: (fs ++ [⟨c.sign, s⟩]))
  | quantified {K : FormulaContext} {us : List Token} (q : Quantifier) (a name s : String)
      (h : Opened K us) :
      Opened (.quantified q ⟨name⟩ K) (us ++ [⟨q.sign, a⟩, ⟨.variableName, name⟩, ⟨.colon, s⟩])

/-- The tokens are those of the constructs around a hole for a term, as far as the hole. -/
inductive TermContext.Opened : {g : Goal} → TermContext g → List Token → Prop
  | outermost (level : Nat) : Opened (.outermost level) []
  | atomLeft {K : FormulaContext} {us : List Token} (h : K.Opened us) : Opened (.atomLeft K) us
  | atomRight {K : FormulaContext} {us xs : List Token} {x : Term} {l : Nat} (s : String)
      (h : K.Opened us) (hx : DerivesTerm xs x l) :
      Opened (.atomRight x K) (us ++ (xs ++ [⟨.equals, s⟩]))
  | successor {g : Goal} {K : TermContext g} {us : List Token} (run : String) (h : Opened K us) :
      Opened (.successor run.length K) (us ++ [⟨.successor, run⟩])
  | operandLeft {g : Goal} {K : TermContext g} {us : List Token} (s : String) (h : Opened K us) :
      Opened (.operandLeft K) (us ++ [⟨.openParen, s⟩])
  | operandRight {g : Goal} {K : TermContext g} {us xs : List Token} {x : Term} {l : Nat}
      (op : Operation) (a s : String) (h : Opened K us) (hx : DerivesTerm xs x l) :
      Opened (.operandRight x op K) (us ++ ⟨.openParen, a⟩ :: (xs ++ [⟨op.sign, s⟩]))

/-- The tokens are those of the constructs that wait, as far as what is due. -/
inductive Due.Reached : {g : Goal} → Due g → List Token → Prop
  | formula {K : FormulaContext} {us : List Token} (h : K.Opened us) : Reached (.formula K) us
  | connective {K : FormulaContext} {us fs : List Token} {F : Formula} {l : Nat} (a : String)
      (h : K.Opened us) (hF : DerivesFormula fs F l) :
      Reached (.connective F K) (us ++ ⟨.openAngle, a⟩ :: fs)
  | closeAngle {K : FormulaContext} {us fs gs : List Token} {F G : Formula} {l m : Nat}
      (c : Connective) (a s : String) (h : K.Opened us) (hF : DerivesFormula fs F l)
      (hG : DerivesFormula gs G m) :
      Reached (.closeAngle F c G K) (us ++ ⟨.openAngle, a⟩ :: (fs ++ ⟨c.sign, s⟩ :: gs))
  | boundVariable {K : FormulaContext} {us : List Token} (q : Quantifier) (a : String)
      (h : K.Opened us) : Reached (.boundVariable q K) (us ++ [⟨q.sign, a⟩])
  | colon {K : FormulaContext} {us : List Token} (q : Quantifier) (a name : String)
      (h : K.Opened us) :
      Reached (.colon q ⟨name⟩ K) (us ++ [⟨q.sign, a⟩, ⟨.variableName, name⟩])
  | equals {K : FormulaContext} {us xs : List Token} {x : Term} {l : Nat} (h : K.Opened us)
      (hx : DerivesTerm xs x l) : Reached (.equals x K) (us ++ xs)
  | term {g : Goal} {K : TermContext g} {us : List Token} (h : K.Opened us) : Reached (.term K) us
  | operation {g : Goal} {K : TermContext g} {us xs : List Token} {x : Term} {l : Nat}
      (a : String) (h : K.Opened us) (hx : DerivesTerm xs x l) :
      Reached (.operation x K) (us ++ ⟨.openParen, a⟩ :: xs)
  | closeParen {g : Goal} {K : TermContext g} {us xs ys : List Token} {x y : Term} {l m : Nat}
      (op : Operation) (a s : String) (h : K.Opened us) (hx : DerivesTerm xs x l)
      (hy : DerivesTerm ys y m) :
      Reached (.closeParen x op y K) (us ++ ⟨.openParen, a⟩ :: (xs ++ ⟨op.sign, s⟩ :: ys))

/-- The tokens lead from the start to where a reading stands. -/
def Progress.Reached {g : Goal} : Progress g → List Token → Prop
  | .due c, us => c.Reached us
  | .done T, us => ∃ l, g.Derives us T l

/-! ### Filling a hole -/

/-- **A derived formula in the hole is read behind what was read before it.** -/
theorem FormulaContext.Opened.fill {K : FormulaContext} {us fs : List Token} {F : Formula} {l : Nat}
    (h : K.Opened us) (hF : DerivesFormula fs F l) : (K.fill F).Reached (us ++ fs) := by
  induction h generalizing fs F l with
  | outermost level => exact ⟨l, hF⟩
  | @negation K us s h ih =>
    rw [List.append_assoc]
    exact ih (.negation s hF)
  | @compoundLeft K us s h ih =>
    rw [List.append_assoc]
    exact .connective s h hF
  | @compoundRight K us gs G m c a s h hG ih =>
    simp only [List.append_assoc, List.cons_append, List.nil_append]
    exact .closeAngle c a s h hG hF
  | @quantified K us q a name s h ih =>
    rw [List.append_assoc]
    exact ih (.quantification q a name s hF)

/-- **A derived term in the hole is read behind what was read before it.** -/
theorem TermContext.Opened.fill {g : Goal} {K : TermContext g} {us ts : List Token} {t : Term}
    {l : Nat} (h : K.Opened us) (ht : DerivesTerm ts t l) : (K.fill t).Reached (us ++ ts) := by
  induction h generalizing ts t l with
  | outermost level => exact ⟨l, ht⟩
  | atomLeft h => exact .equals h ht
  | @atomRight K us xs x m s h hx =>
    simp only [List.append_assoc, List.cons_append, List.nil_append]
    exact h.fill (.atom s hx ht)
  | @successor g K us run h ih =>
    rw [List.append_assoc]
    exact ih (.addSuccessors run ht)
  | @operandLeft g K us s h ih =>
    rw [List.append_assoc]
    exact .operation s h ht
  | @operandRight g K us xs x m op a s h hx ih =>
    simp only [List.append_assoc, List.cons_append, List.nil_append]
    exact .closeParen op a s h hx ht

/-! ### Taking tokens -/

/-- A token that a due term takes is taken behind what was read before it. -/
theorem TermContext.Opened.next? {g : Goal} {K : TermContext g} {us : List Token} {t : Token}
    {P : Progress g} (h : K.Opened us) (k : K.next? t = some P) : P.Reached (us ++ [t]) := by
  obtain ⟨kind, s⟩ := t
  cases kind <;> simp only [TermContext.next?, Option.some.injEq, reduceCtorEq] at k
  case zero =>
    subst k
    exact h.fill (.zero s)
  case variableName =>
    subst k
    exact h.fill (.var s)
  case successor =>
    subst k
    exact .term (.successor s h)
  case openParen =>
    subst k
    exact .term (.operandLeft s h)

/-- **Taking a token keeps track of the tokens taken.** -/
theorem Due.Reached.next? {g : Goal} {c : Due g} {us : List Token} {t : Token} {P : Progress g}
    (h : c.Reached us) (k : c.next? t = some P) : P.Reached (us ++ [t]) := by
  obtain ⟨kind, s⟩ := t
  cases h with
  | @formula K us h =>
    cases hb : kind.beginsConstruct with
    | false =>
      rw [Due.next?_formula_of_beginsConstruct hb] at k
      exact (TermContext.Opened.atomLeft h).next? k
    | true =>
      cases kind <;> cases hb <;> cases k
      · exact .formula (.negation s h)
      · exact .formula (.compoundLeft s h)
      · exact .boundVariable .thereExists s h
      · exact .boundVariable .forAll s h
  | @connective K us fs F l a h hF =>
    obtain ⟨c, hc, rfl⟩ := Option.map_eq_some_iff.mp k
    obtain rfl : kind = c.sign := TokenKind.connective?_eq_some.mp hc
    rw [List.append_assoc]
    exact .formula (.compoundRight c a s h hF)
  | @closeAngle K us fs gs F G l m c a b h hF hG =>
    obtain ⟨rfl, rfl⟩ : kind = .closeAngle ∧ K.fill (.compound c F G) = P := by
      simpa [Due.next?] using k
    have whole := h.fill (.compound c a b s hF hG)
    simpa using whole
  | @boundVariable K us q a h =>
    obtain ⟨rfl, rfl⟩ : kind = .variableName ∧ .due (.colon q ⟨s⟩ K) = P := by
      simpa [Due.next?] using k
    rw [List.append_assoc]
    exact .colon q a s h
  | @colon K us q a name h =>
    obtain ⟨rfl, rfl⟩ : kind = .colon ∧ .due (.formula (.quantified q ⟨name⟩ K)) = P := by
      simpa [Due.next?] using k
    rw [List.append_assoc]
    exact .formula (.quantified q a name s h)
  | @equals K us xs x l h hx =>
    obtain ⟨rfl, rfl⟩ : kind = .equals ∧ .due (.term (.atomRight x K)) = P := by
      simpa [Due.next?] using k
    rw [List.append_assoc]
    exact .term (.atomRight s h hx)
  | term h => exact h.next? k
  | @operation g K us xs x l a h hx =>
    obtain ⟨op, ho, rfl⟩ := Option.map_eq_some_iff.mp k
    obtain rfl : kind = op.sign := TokenKind.operation?_eq_some.mp ho
    rw [List.append_assoc]
    exact .term (.operandRight op a s h hx)
  | @closeParen g K us xs ys x y l m op a b h hx hy =>
    obtain ⟨rfl, rfl⟩ : kind = .closeParen ∧ K.fill (.compound op x y) = P := by
      simpa [Due.next?] using k
    have whole := h.fill (.compound op a b s hx hy)
    simpa using whole

/-- **A run keeps track of the tokens taken.** -/
theorem Progress.Reached.run {g : Goal} {P Q : Progress g} {us ts : List Token}
    (h : P.Reached us) (k : P.run ts = some Q) : Q.Reached (us ++ ts) := by
  induction ts generalizing P us with
  | nil =>
    obtain rfl : P = Q := by simpa using k
    rwa [List.append_nil]
  | cons t ts ih =>
    cases P with
    | done T => cases k
    | due c =>
      obtain ⟨R, hR, hQ⟩ := Option.bind_eq_some_iff.mp k
      rw [List.append_cons]
      exact ih (Due.Reached.next? h hR) hQ

/-! ### Bringing a reading to its end -/

/-- Some tokens lead to the goal. -/
def Progress.Completable {g : Goal} (P : Progress g) : Prop :=
  ∃ ts T, P.run ts = some (.done T)

theorem Progress.Completable.of_run {g : Goal} {P Q : Progress g} {xs : List Token}
    (h : Q.Completable) (k : P.run xs = some Q) : P.Completable := by
  obtain ⟨ts, T, hT⟩ := h
  refine ⟨xs ++ ts, T, ?_⟩
  rw [Progress.run_append, k, Option.bind_some, hT]

/-- A token brings a reading on its way. -/
theorem Progress.Completable.of_next? {g : Goal} {c : Due g} {Q : Progress g} {t : Token}
    (h : Q.Completable) (k : c.next? t = some Q) : (Progress.due c).Completable :=
  h.of_run (Progress.Leads.single k).1

theorem DerivesTerm.zero_zero : DerivesTerm [⟨.zero, "0"⟩] (.numeral 0) 1 :=
  .zero "0"

theorem DerivesFormula.zero_eq_zero :
    DerivesFormula [⟨.zero, "0"⟩, ⟨.equals, "="⟩, ⟨.zero, "0"⟩]
      (.atom (.numeral 0) (.numeral 0)) 2 :=
  .atom "=" (.zero "0") (.zero "0")

/-- A filled hole for a formula: what waits is closed from the inside out, an equation standing in
for each right side that is yet to come. -/
theorem FormulaContext.completable_fill (K : FormulaContext) (F : Formula) :
    (K.fill F).Completable := by
  induction K generalizing F with
  | outermost level => exact ⟨[], F, rfl⟩
  | negation K ih => exact ih (.negation F)
  | compoundLeft K ih =>
    have close (G : Formula) : (Progress.due (.closeAngle F .and G K)).Completable :=
      (ih (.compound .and F G)).of_next? (t := ⟨.closeAngle, ">"⟩) rfl
    have right : (Progress.due (.formula (.compoundRight F .and K))).Completable :=
      (close _).of_run (DerivesFormula.zero_eq_zero.leads (.compoundRight F .and K)).1
    exact right.of_next? (t := ⟨.and, "^"⟩) rfl
  | compoundRight G c K ih => exact (ih (.compound c G F)).of_next? (t := ⟨.closeAngle, ">"⟩) rfl
  | quantified q v K ih => exact ih (.quantification q v F)

/-- A filled hole for a term. -/
theorem TermContext.completable_fill {g : Goal} (K : TermContext g) (t : Term) :
    (K.fill t).Completable := by
  induction K generalizing t with
  | outermost level => exact ⟨[], t, rfl⟩
  | atomLeft K =>
    have right : (Progress.due (.term (.atomRight t K))).Completable :=
      (K.completable_fill (.atom t _)).of_run (DerivesTerm.zero_zero.leads (.atomRight t K)).1
    exact right.of_next? (t := ⟨.equals, "="⟩) rfl
  | atomRight x K => exact K.completable_fill (.atom x t)
  | successor q K ih => exact ih (t.addSuccessors q)
  | operandLeft K ih =>
    have close (y : Term) : (Progress.due (.closeParen t .sum y K)).Completable :=
      (ih (.compound .sum t y)).of_next? (t := ⟨.closeParen, ")"⟩) rfl
    have right : (Progress.due (.term (.operandRight t .sum K))).Completable :=
      (close _).of_run (DerivesTerm.zero_zero.leads (.operandRight t .sum K)).1
    exact right.of_next? (t := ⟨.plus, "+"⟩) rfl
  | operandRight x op K ih => exact (ih (.compound op x t)).of_next? (t := ⟨.closeParen, ")"⟩) rfl

/-- **Whatever is due, the reading can be brought to its end.** -/
theorem Due.completable {g : Goal} (c : Due g) : (Progress.due c).Completable := by
  have formula (K : FormulaContext) : (Progress.due (.formula K)).Completable :=
    (K.completable_fill _).of_run (DerivesFormula.zero_eq_zero.leads K).1
  have term {g : Goal} (K : TermContext g) : (Progress.due (.term K)).Completable :=
    (K.completable_fill _).of_run (DerivesTerm.zero_zero.leads K).1
  cases c with
  | formula K => exact formula K
  | connective F K => exact (formula (.compoundRight F .and K)).of_next? (t := ⟨.and, "^"⟩) rfl
  | closeAngle F c G K =>
    exact (K.completable_fill (.compound c F G)).of_next? (t := ⟨.closeAngle, ">"⟩) rfl
  | boundVariable q K =>
    have colon : (Progress.due (.colon q ⟨"a"⟩ K)).Completable :=
      (formula (.quantified q ⟨"a"⟩ K)).of_next? (t := ⟨.colon, ":"⟩) rfl
    exact colon.of_next? (t := ⟨.variableName, "a"⟩) rfl
  | colon q v K => exact (formula (.quantified q v K)).of_next? (t := ⟨.colon, ":"⟩) rfl
  | equals x K => exact (term (.atomRight x K)).of_next? (t := ⟨.equals, "="⟩) rfl
  | term K => exact term K
  | operation x K => exact (term (.operandRight x .sum K)).of_next? (t := ⟨.plus, "+"⟩) rfl
  | closeParen x op y K =>
    exact (K.completable_fill (.compound op x y)).of_next? (t := ⟨.closeParen, ")"⟩) rfl

/-- **So can whatever a reading has come to.** -/
theorem Progress.completable {g : Goal} (P : Progress g) : P.Completable := by
  cases P with
  | due c => exact c.completable
  | done T => exact ⟨[], T, rfl⟩

/-! ### Runs from the start -/

/-- A formula is due and nothing waits. -/
abbrev Progress.start : Progress .formula :=
  .due (.formula (.outermost 1))

theorem Progress.reached_start : Progress.start.Reached [] :=
  .formula (.outermost 1)

/-- **A derivation runs from the start to its tree, as deep as its level.** -/
theorem DerivesFormula.leads_start {ts : List Token} {F : Formula} {l : Nat}
    (h : DerivesFormula ts F l) : Progress.start.Leads ts (.done F) l :=
  (h.leads (.outermost 1)).of_level_eq (by simp [FormulaContext.level])

/-- **A run from the start that meets the goal is a derivation.** -/
theorem exists_derives_of_run_start {ts : List Token} {F : Formula}
    (h : Progress.start.run ts = some (.done F)) : ∃ l, DerivesFormula ts F l :=
  Progress.reached_start.run h

/-- **Formulas are what leads from the start to the goal.** -/
theorem isFormula_iff {ts : List Token} :
    IsFormula ts ↔ ∃ F, Progress.start.run ts = some (.done F) := by
  constructor
  · rintro ⟨F, l, h⟩
    exact ⟨F, h.leads_start.1⟩
  · rintro ⟨F, h⟩
    exact ⟨F, exists_derives_of_run_start h⟩

/-- **What can be continued to a formula is what leads anywhere from the start.** -/
theorem viable_iff {ts : List Token} : Viable ts ↔ ∃ P, Progress.start.run ts = some P := by
  constructor
  · rintro ⟨more, F, l, h⟩
    obtain ⟨P, hP, -⟩ := Progress.exists_run_of_append h.leads_start.1
    exact ⟨P, hP⟩
  · rintro ⟨P, hP⟩
    obtain ⟨more, F, hF⟩ := P.completable
    refine ⟨more, isFormula_iff.mpr ⟨F, ?_⟩⟩
    rw [Progress.run_append, hP, Option.bind_some, hF]

/-- **No formula goes on as another.** -/
theorem DerivesFormula.eq_nil_of_append {us vs : List Token} {F G : Formula} {l m : Nat}
    (h : DerivesFormula us F l) (k : DerivesFormula (us ++ vs) G m) : vs = [] :=
  (Progress.eq_nil_of_run_append h.leads_start.1 k.leads_start.1).1

end Typographical
