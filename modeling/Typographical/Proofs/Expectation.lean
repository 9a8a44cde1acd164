/-
# What may come next

A refusal names what was expected.  `CanFollow` says which kinds of token can
come next by the texts that are formulas: some such text begins with the tokens
that were taken and goes on with one of the kind.  `Expectation` sets what a
refusal names against that, and `Formula.expectation_exact` is that the two agree,
whatever waits and however deep.

What can follow is what the reading takes.  A reading that takes a token can be
brought to its end (`Due.completable`), and since only the kinds of tokens
decide what is a formula (`DerivesFormula.of_kinds_eq`), the tokens it is brought
to its end with may be written as one likes, with spaces between them
(`tokenize_texts`).  Each thing that can be due takes the tokens of some kinds and
no others (`Due.isSome_next?_iff`).
-/

import Typographical.Proofs.Concatenation
import Typographical.Proofs.Partition
import Typographical.Proofs.Verdict

namespace Typographical

/-! ### Only the kinds count -/

/-- A list with the kinds of given tokens begins with a token of the first kind. -/
theorem exists_cons_of_kinds {us ts : List Token} {k : TokenKind} {s : String}
    (same : us.map Token.kind = (⟨k, s⟩ :: ts).map Token.kind) :
    ∃ s' us', us = ⟨k, s'⟩ :: us' ∧ us'.map Token.kind = ts.map Token.kind := by
  obtain ⟨⟨kind, s'⟩, us', rfl, rfl, rest⟩ := List.map_eq_cons_iff.mp same
  exact ⟨s', us', rfl, rest⟩

/-- It is cut where the given tokens are. -/
theorem exists_append_of_kinds {us ts ts' : List Token}
    (same : us.map Token.kind = (ts ++ ts').map Token.kind) :
    ∃ vs vs', us = vs ++ vs' ∧ vs.map Token.kind = ts.map Token.kind ∧
      vs'.map Token.kind = ts'.map Token.kind := by
  rw [List.map_append] at same
  exact List.map_eq_append_iff.mp same

/-- **Tokens of the same kinds derive a term of the same level.** -/
theorem DerivesTerm.of_kinds_eq {us ts : List Token} {t : Term} {l : Nat} (h : DerivesTerm ts t l)
    (same : us.map Token.kind = ts.map Token.kind) : ∃ u, DerivesTerm us u l := by
  induction h generalizing us with
  | zero s =>
    obtain ⟨s', us, rfl, rest⟩ := exists_cons_of_kinds same
    obtain rfl := List.map_eq_nil_iff.mp rest
    exact ⟨_, .zero s'⟩
  | var name =>
    obtain ⟨name', us, rfl, rest⟩ := exists_cons_of_kinds same
    obtain rfl := List.map_eq_nil_iff.mp rest
    exact ⟨_, .var name'⟩
  | numeral run h ih =>
    obtain ⟨run', us, rfl, rest⟩ := exists_cons_of_kinds same
    obtain ⟨u, hu⟩ := ih rest
    exact ⟨_, hu.addSuccessors run'⟩
  | successor run ht h ih =>
    obtain ⟨run', us, rfl, rest⟩ := exists_cons_of_kinds same
    obtain ⟨u, hu⟩ := ih rest
    exact ⟨_, hu.addSuccessors run'⟩
  | compound op a s b hx hy ihx ihy =>
    obtain ⟨a', us, rfl, inner⟩ := exists_cons_of_kinds same
    obtain ⟨xs, us, rfl, left, behind⟩ := exists_append_of_kinds inner
    obtain ⟨s', us, rfl, rest⟩ := exists_cons_of_kinds behind
    obtain ⟨ys, us, rfl, right, close⟩ := exists_append_of_kinds rest
    obtain ⟨b', us, rfl, none⟩ := exists_cons_of_kinds close
    obtain rfl := List.map_eq_nil_iff.mp none
    obtain ⟨x, hx⟩ := ihx left
    obtain ⟨y, hy⟩ := ihy right
    exact ⟨_, .compound op a' s' b' hx hy⟩

/-- **Tokens of the same kinds derive a formula of the same level.** -/
theorem DerivesFormula.of_kinds_eq {us ts : List Token} {F : Formula} {l : Nat}
    (h : DerivesFormula ts F l) (same : us.map Token.kind = ts.map Token.kind) :
    ∃ G, DerivesFormula us G l := by
  induction h generalizing us with
  | atom s hx hy =>
    obtain ⟨xs, us, rfl, left, behind⟩ := exists_append_of_kinds same
    obtain ⟨s', ys, rfl, right⟩ := exists_cons_of_kinds behind
    obtain ⟨x, hx⟩ := hx.of_kinds_eq left
    obtain ⟨y, hy⟩ := hy.of_kinds_eq right
    exact ⟨_, .atom s' hx hy⟩
  | negation s hF ih =>
    obtain ⟨s', us, rfl, rest⟩ := exists_cons_of_kinds same
    obtain ⟨G, hG⟩ := ih rest
    exact ⟨_, .negation s' hG⟩
  | compound c a s b hF hG ihF ihG =>
    obtain ⟨a', us, rfl, inner⟩ := exists_cons_of_kinds same
    obtain ⟨fs, us, rfl, left, behind⟩ := exists_append_of_kinds inner
    obtain ⟨s', us, rfl, rest⟩ := exists_cons_of_kinds behind
    obtain ⟨gs, us, rfl, right, close⟩ := exists_append_of_kinds rest
    obtain ⟨b', us, rfl, none⟩ := exists_cons_of_kinds close
    obtain rfl := List.map_eq_nil_iff.mp none
    obtain ⟨F, hF⟩ := ihF left
    obtain ⟨G, hG⟩ := ihG right
    exact ⟨_, .compound c a' s' b' hF hG⟩
  | quantification q a name s hF ih =>
    obtain ⟨a', us, rfl, named⟩ := exists_cons_of_kinds same
    obtain ⟨name', us, rfl, behind⟩ := exists_cons_of_kinds named
    obtain ⟨s', us, rfl, body⟩ := exists_cons_of_kinds behind
    obtain ⟨G, hG⟩ := ih body
    exact ⟨_, .quantification q a' name' s' hG⟩

/-! ### Writing tokens down -/

/-- A token of the kind; of a kind that reading stops at there is none to write. -/
def TokenKind.sample : TokenKind → Token
  | .successor => ⟨.successor, "S"⟩
  | .variableName => ⟨.variableName, "a"⟩
  | k => ⟨k, k.spelling⟩

theorem TokenKind.kind_sample (k : TokenKind) : k.sample.kind = k := by
  cases k <;> rfl

theorem TokenKind.spelled_sample {k : TokenKind} (h : k.isStop = false) : k.sample.Spelled := by
  cases k <;> first
    | exact .symbol rfl
    | exact .run (q := 1) (Nat.le_refl 1)
    | exact .name (v := ⟨"a"⟩) ⟨'a', [], rfl, rfl, nofun⟩
    | cases h

/-- A token that can be read is the longest where nothing stands behind it. -/
theorem Token.Spelled.longest {t : Token} (h : t.Spelled) (legal : t.kind ≠ .illegal) :
    t.Longest none := by
  cases h with
  | symbol h => exact .symbol h
  | @name v h =>
    obtain ⟨letter, primes, e, hl, hp⟩ := h
    rw [e]
    exact .name hl hp nofun
  | @run q h =>
    have some : 0 < (List.replicate q 'S').length := by rwa [List.length_replicate]
    refine .run (List.ne_nil_of_length_pos some) ?_ nofun
    intro c hc
    rw [List.eq_of_mem_replicate hc]
    rfl
  | illegal h hv hS => exact absurd rfl legal

/-- The text of a token is cut into that token. -/
theorem Token.Longest.tokenize_text {t : Token} (h : t.Longest none) : tokenize t.text = [t] := by
  have whole := lexemes_longest (l := []) h
  rw [List.append_nil, lexemes_nil] at whole
  rw [tokenize_eq_lexemes, whole]

/-- **Tokens written down with spaces between them are cut into those tokens.** -/
theorem tokenize_texts {ts : List Token} (longest : ∀ t ∈ ts, t.Longest none) :
    tokenize (" ".intercalate (ts.map Token.text)) = ts := by
  have alone (t : Token) (ht : t ∈ ts) : tokenize t.text = [t] := (longest t ht).tokenize_text
  rw [tokenize_intercalate, List.flatMap_map, List.flatMap_congr alone, List.flatMap_singleton']
  intro s hs t ht
  obtain ⟨u, hu, rfl⟩ := List.mem_map.mp hs
  rw [alone u hu, List.mem_singleton] at ht
  rw [ht]
  exact (TokenKind.ne_of_isStop_eq_false (longest u hu).isStop_eq).1

/-! ### What can follow -/

/-- Some text that is a formula begins with these tokens and goes on with one of the kind. -/
def CanFollow (us : List Token) (k : TokenKind) : Prop :=
  ∃ (source : String) (t : Token) (more : List Token), t.kind = k ∧
    tokenize source = us ++ t :: more ∧ IsFormula (tokenize source)

/-- A formula is due behind these tokens: they are those of the constructs around a hole for one, as
far as the hole. -/
def FormulaDue (us : List Token) : Prop :=
  ∃ K : FormulaContext, K.Opened us

/-- Behind tokens that can be read, a kind can follow if any token of it leaves a formula in
reach. -/
theorem canFollow_iff {us : List Token} {k : TokenKind} (longest : ∀ t ∈ us, t.Longest none) :
    CanFollow us k ↔ ∃ s, Viable (us ++ [⟨k, s⟩]) := by
  constructor
  · rintro ⟨source, ⟨k, s⟩, more, rfl, tokens, formula⟩
    rw [tokens] at formula
    refine ⟨s, more, ?_⟩
    rwa [List.append_assoc, List.singleton_append]
  · rintro ⟨s, more, formula⟩
    rw [List.append_assoc, List.singleton_append] at formula
    obtain ⟨F, run⟩ := isFormula_iff.mp formula
    have goesOn := Progress.isStop_of_run run
    -- the tokens that are to follow may be spelled in other ways
    let written := ((⟨k, s⟩ :: more : List Token).map Token.kind).map TokenKind.sample
    have kinds : (us ++ written).map Token.kind = (us ++ ⟨k, s⟩ :: more).map Token.kind := by
      simp [written, TokenKind.kind_sample, Function.comp_def]
    have sampled : ∀ t ∈ written, t.Longest none := by
      intro t ht
      obtain ⟨kind, hk, rfl⟩ := List.mem_map.mp ht
      obtain ⟨u, hu, rfl⟩ := List.mem_map.mp hk
      have stop := goesOn u (List.mem_append_right us hu)
      refine (TokenKind.spelled_sample stop).longest ?_
      rw [TokenKind.kind_sample]
      exact (TokenKind.ne_of_isStop_eq_false stop).1
    have tokens := tokenize_texts (List.forall_mem_append.mpr ⟨longest, sampled⟩)
    obtain ⟨F, l, derives⟩ := formula
    obtain ⟨G, hG⟩ := derives.of_kinds_eq kinds
    refine ⟨_, k.sample, _, k.kind_sample, tokens, ?_⟩
    rw [tokens]
    exact ⟨G, l, hG⟩

/-! ### What is due -/

/-- The kinds of token that a term begins with. -/
def TokenKind.beginTerms : List TokenKind :=
  [.zero, .successor, .variableName, .openParen]

/-- The kinds of token that announce a formula. -/
def TokenKind.announceFormulas : List TokenKind :=
  [.negation, .openAngle, .thereExists, .forAll]

/-- The kinds of token that what is due goes on with. -/
def Due.kinds {g : Goal} : Due g → List TokenKind
  | formula _ => TokenKind.beginTerms ++ TokenKind.announceFormulas
  | connective .. => [.and, .or, .ifThen]
  | closeAngle .. => [.closeAngle]
  | boundVariable .. => [.variableName]
  | colon .. => [.colon]
  | equals .. => [.equals]
  | term _ => TokenKind.beginTerms
  | operation .. => [.plus, .multiply]
  | closeParen .. => [.closeParen]

theorem TermContext.isSome_next?_iff {g : Goal} (K : TermContext g) (t : Token) :
    (K.next? t).isSome = true ↔ t.kind ∈ TokenKind.beginTerms := by
  obtain ⟨kind, s⟩ := t
  cases kind <;> simp [next?, TokenKind.beginTerms]

/-- **What is due takes the tokens of its kinds, and no others.** -/
theorem Due.isSome_next?_iff {g : Goal} (c : Due g) (t : Token) :
    (c.next? t).isSome = true ↔ t.kind ∈ c.kinds := by
  obtain ⟨kind, s⟩ := t
  cases c with
  | formula K =>
    cases kind <;>
      simp [next?, TermContext.next?, kinds, TokenKind.beginTerms, TokenKind.announceFormulas]
  | term K => exact K.isSome_next?_iff _
  | connective F K => cases kind <;> simp [next?, kinds, TokenKind.connective?]
  | operation x K => cases kind <;> simp [next?, kinds, TokenKind.operation?]
  | closeAngle F c G K => by_cases h : kind = .closeAngle <;> simp [next?, kinds, h]
  | boundVariable q K => by_cases h : kind = .variableName <;> simp [next?, kinds, h]
  | colon q v K => by_cases h : kind = .colon <;> simp [next?, kinds, h]
  | equals x K => by_cases h : kind = .equals <;> simp [next?, kinds, h]
  | closeParen x op y K => by_cases h : kind = .closeParen <;> simp [next?, kinds, h]

/-- **Behind tokens that leave something due, what can follow is what that takes.** -/
theorem canFollow_iff_mem_kinds {us : List Token} {d : Due .formula} {k : TokenKind}
    (longest : ∀ t ∈ us, t.Longest none) (run : Progress.start.run us = some (.due d)) :
    CanFollow us k ↔ k ∈ d.kinds := by
  have taken (s : String) : Viable (us ++ [⟨k, s⟩]) ↔ k ∈ d.kinds := by
    rw [viable_iff, Progress.run_append, run, Option.bind_some, Progress.run_due_cons,
      ← d.isSome_next?_iff ⟨k, s⟩]
    cases d.next? ⟨k, s⟩ <;> simp
  rw [canFollow_iff longest]
  simp only [taken, exists_const]

/-- The constructs around a hole lead to it, from the start on. -/
theorem FormulaContext.Opened.exists_run {K : FormulaContext} {us : List Token} (h : K.Opened us) :
    ∃ K' : FormulaContext, Progress.start.run us = some (.due (.formula K')) := by
  induction h with
  | outermost level => exact ⟨.outermost 1, Progress.run_nil _⟩
  | negation s h ih =>
    obtain ⟨K', run⟩ := ih
    refine ⟨.negation K', ?_⟩
    rw [Progress.run_append, run]
    rfl
  | compoundLeft s h ih =>
    obtain ⟨K', run⟩ := ih
    refine ⟨.compoundLeft K', ?_⟩
    rw [Progress.run_append, run]
    rfl
  | @compoundRight K us fs F l c a s h hF ih =>
    obtain ⟨K', run⟩ := ih
    refine ⟨.compoundRight F c K', ?_⟩
    have left : (Progress.due (.formula (.compoundLeft K'))).run fs =
        some (.due (.connective F K')) := (hF.leads (.compoundLeft K')).1
    have announced : (Due.formula K').next? ⟨.openAngle, a⟩ =
        some (.due (.formula (.compoundLeft K'))) := rfl
    rw [Progress.run_append, run, Option.bind_some, Progress.run_due_cons, announced,
      Option.bind_some, Progress.run_append, left]
    cases c <;> rfl
  | quantified q a name s h ih =>
    obtain ⟨K', run⟩ := ih
    refine ⟨.quantified q ⟨name⟩ K', ?_⟩
    rw [Progress.run_append, run]
    cases q <;> rfl

/-- **A formula is due where the reading says so.** -/
theorem formulaDue_iff {us : List Token} {d : Due .formula}
    (run : Progress.start.run us = some (.due d)) :
    FormulaDue us ↔ ∃ K, d = .formula K := by
  constructor
  · rintro ⟨K, opened⟩
    obtain ⟨K', run'⟩ := opened.exists_run
    rw [run] at run'
    cases run'
    exact ⟨K', rfl⟩
  · rintro ⟨K, rfl⟩
    have reached : Due.Reached (.formula K) us := Progress.reached_start.run run
    cases reached with
    | formula opened => exact ⟨K, opened⟩

/-! ### The tokens in front of a place -/

/-- The tokens of a text that begin in front of a place. -/
def tokensBefore (source : String) (n : Nat) : List Token :=
  ((Scanner.ofString source).sightings.takeWhile fun m => m.offset < n).map Sighting.token

namespace Scanner

/-- A token that does not stop reading is behind the scanner once it is read. -/
theorem offset_scan_lt_pos_scan {s : Scanner} (goesOn : s.scan.1.kind.isStop = false) :
    s.scan.2.offset < s.scan.2.pos := by
  have text : s.scan.1.text ≠ "" := (longest_leadingToken goesOn).text_ne
  have length : 0 < s.scan.1.text.length :=
    Nat.pos_of_ne_zero fun none => text (String.length_eq_zero_iff.mp none)
  have width : s.scan.1.width = s.scan.1.text.length := by
    unfold Token.width
    rw [goesOn]
    rfl
  show s.scan.2.offset < s.scan.2.offset + s.scan.1.width
  omega

/-- **The tokens read up to a place are those that begin in front of the next one.** -/
theorem Reads.takeWhile_sightings {s last : Scanner} {us : List Token} (h : s.Reads us last)
    (goesOn : ∀ t ∈ us, t.kind.isStop = false) :
    (s.sightings.takeWhile fun m => m.offset < last.scan.2.offset).map Sighting.token = us := by
  induction h with
  | nil s =>
    have head : ∃ rest, s.sightings = s.sighting :: rest := by
      rw [sightings]
      split
      · exact ⟨_, rfl⟩
      · exact ⟨_, rfl⟩
    obtain ⟨rest, e⟩ := head
    have here : ¬s.sighting.offset < s.scan.2.offset := Nat.lt_irrefl _
    rw [e, List.takeWhile_cons_of_neg (by simpa using here), List.map_nil]
  | @cons s last us h ih =>
    have first := goesOn _ List.mem_cons_self
    have before : s.sighting.offset < last.scan.2.offset := by
      have width := offset_scan_lt_pos_scan first
      have moved := (h.offset_le_and_pos_le s.offset_scan_le_pos_scan).2
      have next := last.pos_le_offset_scan
      show s.scan.2.offset < last.scan.2.offset
      omega
    rw [sightings_of_goesOn first, List.takeWhile_cons_of_pos (by simpa using before),
      List.map_cons, ih fun t ht => goesOn t (List.mem_cons_of_mem _ ht)]
    rfl

end Scanner

/-- The tokens of a text that come before the token it was read to. -/
theorem Scanner.Reads.tokensBefore_eq {source : String} {last : Scanner} {us : List Token}
    (h : (ofString source).Reads us last) (goesOn : ∀ t ∈ us, t.kind.isStop = false) :
    tokensBefore source last.scan.2.offset = us :=
  h.takeWhile_sightings goesOn

/-! ### What is expected -/

/-- What the words of a refusal say about the tokens in front of it.  Each kind they name can
follow, and no other.  Where they name a term, a formula may be due. -/
inductive Expectation (us : List Token) : String → Prop
  | equals (exact : ∀ k, CanFollow us k ↔ k = .equals) : Expectation us "="
  | variableName (exact : ∀ k, CanFollow us k ↔ k = .variableName) : Expectation us "VARIABLE"
  | colon (exact : ∀ k, CanFollow us k ↔ k = .colon) : Expectation us ":"
  | closeAngle (exact : ∀ k, CanFollow us k ↔ k = .closeAngle) : Expectation us ">"
  | closeParen (exact : ∀ k, CanFollow us k ↔ k = .closeParen) : Expectation us ")"
  | operation (exact : ∀ k, CanFollow us k ↔ k ∈ [.plus, .multiply]) : Expectation us "+ or *"
  | connective (exact : ∀ k, CanFollow us k ↔ k ∈ [.and, .or, .ifThen]) :
      Expectation us "AND, OR or IF_THEN in compound formula"
  | term (noFormula : ¬FormulaDue us)
      (exact : ∀ k, CanFollow us k ↔ k ∈ [.zero, .successor, .variableName, .openParen]) :
      Expectation us "term"
  | formula (due : FormulaDue us)
      (exact : ∀ k, CanFollow us k ↔
        k ∈ [.zero, .successor, .variableName, .openParen] ∨
          k ∈ [.negation, .openAngle, .thereExists, .forAll]) :
      Expectation us "term"

/-- **The words for what is due say what can follow.** -/
theorem expectation_wording {us : List Token} {d : Due .formula}
    (longest : ∀ t ∈ us, t.Longest none) (run : Progress.start.run us = some (.due d)) :
    Expectation us d.wording := by
  have exact (k : TokenKind) : CanFollow us k ↔ k ∈ d.kinds := canFollow_iff_mem_kinds longest run
  have due := formulaDue_iff run
  cases d with
  | formula K => exact .formula (due.mpr ⟨K, rfl⟩) fun k => (exact k).trans List.mem_append
  | connective F K => exact .connective exact
  | closeAngle F c G K => exact .closeAngle fun k => (exact k).trans List.mem_singleton
  | boundVariable q K => exact .variableName fun k => (exact k).trans List.mem_singleton
  | colon q v K => exact .colon fun k => (exact k).trans List.mem_singleton
  | equals x K => exact .equals fun k => (exact k).trans List.mem_singleton
  | term K =>
    refine .term (fun formula => ?_) exact
    obtain ⟨K', e⟩ := due.mp formula
    cases e
  | operation x K => exact .operation exact
  | closeParen x op y K => exact .closeParen fun k => (exact k).trans List.mem_singleton

/-- What a fault names as expected, if it names something. -/
def ParseFault.expected? : ParseFault → Option String
  | unexpectedToken expected _ _ => some expected
  | unexpectedEnd expected => some expected
  | _ => none

/-- What a token that is not expected is blamed for names what was expected instead. -/
theorem ParseFault.eq_of_expected?_ofToken {wording expected : String} {t : Token}
    (h : (ofToken wording t).expected? = some expected) :
    expected = wording ∧ (t.kind = .endOfText ∧ ofToken wording t = .unexpectedEnd expected ∨
      t.kind ≠ .endOfText ∧ ofToken wording t = .unexpectedToken expected t.kind t.text) := by
  obtain ⟨kind, s⟩ := t
  cases kind <;> cases h <;> simp [ofToken]

/-- **What a refusal names as expected is what can come next.**  A refusal that names something
stands behind some tokens of the text, at the end of it or at the token that is refused.  The words
`=`, `VARIABLE`, `:`, `>` and `)` name the one kind that can follow these tokens, the words for
operations and connectives the two or three.  The word for a term names the kinds that a term begins
with, and those that announce a formula can follow too exactly where a formula is due. -/
theorem Formula.expectation_exact (source : String) (bound : Nat) (fault : ParseFault)
    (position : Option Int) (expected : String)
    (fails : Formula.parse source bound = .error ⟨fault, position⟩)
    (names : fault.expected? = some expected) :
    ∃ n : Nat, position = some (n : Int) ∧
      (fault = .unexpectedEnd expected ∧ tokenize source = tokensBefore source n ∨
        ∃ kind text rest, fault = .unexpectedToken expected kind text ∧
          tokenize source = tokensBefore source n ++ ⟨kind, text⟩ :: rest) ∧
      Expectation (tokensBefore source n) expected := by
  have outcome := Formula.outcome_parse source bound
  rw [fails] at outcome
  cases outcome with
  | trailing reads run goesOn => cases names
  | tooDeep reads run beyond => cases names
  | @refused us last d reads run none =>
    have goesOn := Progress.isStop_of_run run
    have before := reads.tokensBefore_eq goesOn
    have longest : ∀ t ∈ us, t.Longest Option.none := by
      intro t ht
      have listed : t ∈ tokenize source := by
        rw [tokenize, reads.drain_fst goesOn]
        exact List.mem_append_left _ ht
      exact (Token.spelled_of_mem_drain listed).longest
        (TokenKind.ne_of_isStop_eq_false (goesOn t ht)).1
    obtain ⟨rfl, fault⟩ := ParseFault.eq_of_expected?_ofToken names
    refine ⟨last.scan.2.offset, rfl, ?_, ?_⟩
    · rw [before]
      rcases reads.tokenize_cases run with ⟨ends, tokens⟩ | ⟨more, rest, tokens⟩
      · obtain ⟨-, fault⟩ := fault.resolve_right fun other => other.1 ends
        exact .inl ⟨fault, tokens⟩
      · obtain ⟨-, fault⟩ := fault.resolve_left fun other => more other.1
        exact .inr ⟨_, _, rest, fault, tokens⟩
    · rw [before]
      exact expectation_wording longest run

/-- The hypotheses are met where a term is due inside an equation, and where a formula is due
because a connective stands before it. -/
theorem Formula.expectation_exact_nested :
    Formula.parse "<Aa:a=(0+)" 9 = .error ⟨.unexpectedToken "term" .closeParen ")", some 9⟩ ∧
    Expectation (tokensBefore "<Aa:a=(0+)" 9) "term" ∧
    Formula.parse "<0=0 V" 9 = .error ⟨.unexpectedEnd "term", some 6⟩ ∧
    Expectation (tokensBefore "<0=0 V" 6) "term" := by
  have refused : Formula.parse "<Aa:a=(0+)" 9 =
      .error ⟨.unexpectedToken "term" .closeParen ")", some 9⟩ := by cbv
  have breaksOff : Formula.parse "<0=0 V" 9 = .error ⟨.unexpectedEnd "term", some 6⟩ := by cbv
  obtain ⟨n, place, -, term⟩ := Formula.expectation_exact _ _ _ _ "term" refused rfl
  obtain ⟨m, last, -, formula⟩ := Formula.expectation_exact _ _ _ _ "term" breaksOff rfl
  obtain rfl : n = 9 := by cases place; rfl
  obtain rfl : m = 6 := by cases last; rfl
  exact ⟨refused, term, breaksOff, formula⟩

end Typographical
