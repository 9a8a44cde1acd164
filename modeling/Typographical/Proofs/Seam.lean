/-
# The seam between two texts

Scanning has no memory, except within a name or a run.  So a text that is put together
from two is cut into the tokens of the one and those of the other, unless a token that
reaches the end of the first goes on in the second: a run in a letter of a run, a name in
a prime (`Merges`).  Behind an illegal token nothing is read, whatever is put there.

A text is cut along its blanks and its longest tokens, up to its end or to a character
that begins none.  `cutInduction` is the induction along them, one lemma for each says
what it adds to the tokens, and `lexemes_append_iff` and `lexemes_append_of_illegal`
follow case by case.
-/

import Mathlib.Data.List.Basic
import Typographical.Proofs.Stray

namespace Typographical

variable {c : Char} {t : Token} {xs ys l : List Char}

/-! ### Along the cutting of a text -/

/-- **A text is cut along its blanks and its longest tokens,** up to its end or to a character that
begins none. -/
@[elab_as_elim]
theorem cutInduction {motive : List Char → Prop} (nil : motive [])
    (blank : ∀ c l, Text.isBlank c = true → motive l → motive (c :: l))
    (stray : ∀ c l, BeginsNothing c → motive (c :: l))
    (token : ∀ t l, Token.Longest l.head? t → motive l → motive (t.text.toList ++ l))
    (l : List Char) : motive l := by
  induction hn : l.length using Nat.strongRecOn generalizing l with
  | ind n ih =>
    subst hn
    cases l with
    | nil => exact nil
    | cons c l =>
      cases hc : Text.isBlank c with
      | true => exact blank c l hc (ih _ (Nat.lt_succ_self _) l rfl)
      | false =>
        obtain longest | ⟨-, nothing⟩ := Scanner.leadingToken_cons_longest_or c l
        · have goesOn := longest.isStop_eq
          have whole := Scanner.text_append_leadingToken goesOn
          rw [← whole]
          exact token _ _ longest (ih _ (Scanner.length_leadingToken_lt goesOn) _ rfl)
        · exact stray c l (nothing hc)

/-- **The longest token is cut off.** -/
theorem lexemes_longest (h : t.Longest l.head?) :
    lexemes (t.text.toList ++ l) = t :: lexemes l := by
  obtain ⟨c, rest, text, noBlank⟩ := h.exists_first
  refine lexemes_of_leadingToken ?_ h.isStop_eq
  rw [← Scanner.leadingToken_of_longest h, text, String.toList_ofList, List.cons_append,
    List.dropWhile_cons_of_neg (by simp [noBlank])]

/-- **Cutting ends at a character that begins no token.** -/
theorem lexemes_of_beginsNothing (h : BeginsNothing c) (l : List Char) :
    lexemes (c :: l) = [⟨.illegal, String.ofList [c]⟩] := by
  rw [lexemes_eq, List.dropWhile_cons_of_neg (by simp [h.1]),
    Scanner.leadingToken_of_beginsNothing h]
  rfl

/-- Only what a text begins with is cut off first. -/
theorem leadingToken_of_lexemes_cons {ts : List Token} (h : lexemes l = t :: ts) :
    (leadingToken (l.dropWhile Text.isBlank)).1 = t := by
  rw [lexemes_eq] at h
  generalize leadingToken (l.dropWhile Text.isBlank) = first at h ⊢
  obtain ⟨found, rest⟩ := first
  simp only at h
  split at h
  · exact (List.cons.inj h).1
  · split at h
    · exact (List.cons.inj h).1
    · cases h

/-! ### What goes on over the seam -/

/-- A blank is neither a prime nor a letter of a run. -/
theorem isPrime_and_isSuccessorLetter_of_isBlank (h : Text.isBlank c = true) :
    isPrime c = false ∧ isSuccessorLetter c = false := by
  constructor
  · rw [isPrime_eq_false_iff]
    rintro rfl
    cases h
  · rw [isSuccessorLetter_eq_false_iff]
    rintro rfl
    cases h

/-- A token that reaches the end of the one text goes on in the other: a run in a letter of a run,
a name in a prime. -/
def Merges (xs ys : List Char) : Prop :=
  xs.getLast? = some 'S' ∧ ys.head? = some 'S' ∨
    (∃ c ∈ xs.getLast?, takesPrime c = true) ∧ ys.head? = some '\x27'

instance : Decidable (Merges xs ys) :=
  decidable_of_iff (xs.getLast? = some 'S' ∧ ys.head? = some 'S' ∨
      xs.getLast?.any takesPrime = true ∧ ys.head? = some '\x27') <| by
    rw [Merges, Option.any_eq_true]
    rfl

theorem not_merges_nil : ¬Merges [] ys := by
  rintro (⟨letter, -⟩ | ⟨⟨c, name, -⟩, -⟩)
  · cases letter
  · cases name

/-- What goes on over the seam is what the first text ends in. -/
theorem merges_append (h : l ≠ []) : Merges (xs ++ l) ys ↔ Merges l ys := by
  rw [Merges, List.getLast?_append_of_ne_nil xs h]
  rfl

theorem not_merges_of_getLast? (last : xs.getLast? = some c) (noRun : isSuccessorLetter c = false)
    (noName : takesPrime c = false) : ¬Merges xs ys := by
  rw [Merges, last]
  rintro (⟨letter, -⟩ | ⟨⟨b, name, takes⟩, -⟩)
  · obtain rfl := Option.some.inj letter
    cases noRun
  · obtain rfl := Option.some.inj name
    rw [noName] at takes
    cases takes

/-- Nothing goes on in a blank. -/
theorem not_merges_cons_of_isBlank (h : Text.isBlank c = true) : ¬Merges xs (c :: ys) := by
  obtain ⟨noPrime, noRun⟩ := isPrime_and_isSuccessorLetter_of_isBlank h
  rintro (⟨-, letter⟩ | ⟨-, prime⟩)
  · obtain rfl := Option.some.inj letter
    cases noRun
  · obtain rfl := Option.some.inj prime
    cases noPrime

/-- A run goes on in a letter of a run. -/
theorem merges_run {letters : List Char} (nonempty : letters ≠ [])
    (all : ∀ c ∈ letters, isSuccessorLetter c = true) :
    Merges letters ys ↔ ys.head? = some 'S' := by
  have last : letters.getLast? = some 'S' := by
    rw [List.getLast?_eq_getLast_of_ne_nil nonempty,
      isSuccessorLetter_iff.mp (all _ (List.getLast_mem nonempty))]
  rw [Merges, last]
  constructor
  · rintro (⟨-, goesOn⟩ | ⟨⟨c, letter, takes⟩, -⟩)
    · exact goesOn
    · obtain rfl := Option.some.inj letter
      cases takes
  · exact fun goesOn => .inl ⟨rfl, goesOn⟩

/-- A name goes on in a prime. -/
theorem merges_name {letter : Char} {primes : List Char} (h : isVariableLetter letter = true)
    (all : ∀ c ∈ primes, isPrime c = true) :
    Merges (letter :: primes) ys ↔ ys.head? = some '\x27' := by
  have takes : ∀ c ∈ letter :: primes, takesPrime c = true := by
    refine List.forall_mem_cons.mpr ⟨by simp [takesPrime, h], fun c prime => ?_⟩
    simp [takesPrime, all c prime]
  have last := List.getLast?_eq_getLast_of_ne_nil (List.cons_ne_nil letter primes)
  have lastTakes := takes _ (List.getLast_mem (List.cons_ne_nil letter primes))
  constructor
  · rintro (⟨run, -⟩ | ⟨-, goesOn⟩)
    · rw [last, Option.some.injEq] at run
      rw [run] at lastTakes
      cases lastTakes
    · exact goesOn
  · exact fun goesOn => .inr ⟨⟨_, last, lastTakes⟩, goesOn⟩

theorem Token.Longest.not_merges (h : t.Longest ys.head?) : ¬Merges t.text.toList ys := by
  cases h with
  | @symbol c k symbol =>
    have noRun : isSuccessorLetter c = false := by
      rw [isSuccessorLetter_eq_false_iff]
      rintro rfl
      cases symbol
    rw [String.toList_ofList]
    exact not_merges_of_getLast? rfl noRun (plain_of_ofChar? symbol).2
  | name letter all stops =>
    rw [String.toList_ofList, merges_name letter all]
    intro goesOn
    cases stops _ goesOn
  | run nonempty all stops =>
    rw [String.toList_ofList, merges_run nonempty all]
    intro goesOn
    cases stops _ goesOn

/-- **A token that is the longest at the end of a text is so in front of another one,** unless it
goes on in there. -/
theorem Token.Longest.of_not_merges (h : t.Longest none) (apart : ¬Merges t.text.toList ys) :
    t.Longest ys.head? := by
  cases h with
  | symbol symbol => exact .symbol symbol
  | name letter all stops =>
    rw [String.toList_ofList, merges_name letter all] at apart
    refine .name letter all fun c next => ?_
    rw [isPrime_eq_false_iff]
    rintro rfl
    exact apart next
  | run nonempty all stops =>
    rw [String.toList_ofList, merges_run nonempty all] at apart
    refine .run nonempty all fun c next => ?_
    rw [isSuccessorLetter_eq_false_iff]
    rintro rfl
    exact apart next

/-- Where a token goes on over the seam, another one is cut off. -/
theorem Token.Longest.lexemes_append_iff (h : t.Longest none) :
    lexemes (t.text.toList ++ ys) = t :: lexemes ys ↔ ¬Merges t.text.toList ys := by
  refine ⟨fun cut => ?_, fun apart => lexemes_longest (h.of_not_merges apart)⟩
  obtain ⟨c, rest, text, noBlank⟩ := h.exists_first
  have first := leadingToken_of_lexemes_cons cut
  rw [text, String.toList_ofList, List.cons_append,
    List.dropWhile_cons_of_neg (by simp [noBlank])] at first
  have goesOn : (leadingToken (c :: (rest ++ ys))).1.kind.isStop = false := by
    rw [first]
    exact h.isStop_eq
  have longest := Scanner.longest_leadingToken goesOn
  have whole := Scanner.text_append_leadingToken goesOn
  rw [first, text, String.toList_ofList, List.cons_append, List.cons.injEq,
    List.append_cancel_left_eq] at whole
  rw [first, whole.2] at longest
  exact longest.not_merges

/-! ### Texts put together -/

/-- **Two texts put together are cut into the tokens of each, unless one goes on over the seam.** -/
theorem lexemes_append_iff (legal : ∀ t ∈ lexemes xs, t.kind ≠ .illegal) :
    lexemes (xs ++ ys) = lexemes xs ++ lexemes ys ↔ ¬Merges xs ys := by
  induction xs using cutInduction with
  | nil =>
    rw [lexemes_nil]
    exact iff_of_true rfl not_merges_nil
  | blank c l blank ih =>
    rw [lexemes_blank blank] at legal
    rw [List.cons_append, lexemes_blank blank, lexemes_blank blank, ih legal]
    by_cases last : l = []
    · have noRun := (isPrime_and_isSuccessorLetter_of_isBlank blank).2
      rw [last]
      exact iff_of_true not_merges_nil
        (not_merges_of_getLast? rfl noRun (plain_of_isBlank blank).2)
    · rw [← List.singleton_append, merges_append last]
  | stray c l nothing =>
    rw [lexemes_of_beginsNothing nothing] at legal
    exact absurd rfl (legal _ List.mem_cons_self)
  | token t l longest ih =>
    by_cases last : l = []
    · subst last
      rw [lexemes_longest longest, List.append_nil, lexemes_nil, List.singleton_append]
      exact longest.lexemes_append_iff
    · rw [lexemes_longest longest] at legal ⊢
      rw [← List.head?_append_of_ne_nil l last] at longest
      rw [List.append_assoc, lexemes_longest longest, List.cons_append, List.cons.injEq,
        eq_self_iff_true, true_and, ih (List.forall_mem_cons.mp legal).2, merges_append last]

/-- **Behind an illegal token nothing is read.** -/
theorem lexemes_append_of_illegal (illegal : ∃ t ∈ lexemes xs, t.kind = .illegal)
    (ys : List Char) : lexemes (xs ++ ys) = lexemes xs := by
  induction xs using cutInduction with
  | nil =>
    obtain ⟨t, none, -⟩ := illegal
    cases lexemes_nil ▸ none
  | blank c l blank ih =>
    rw [lexemes_blank blank] at illegal
    rw [List.cons_append, lexemes_blank blank, lexemes_blank blank, ih illegal]
  | stray c l nothing =>
    rw [List.cons_append, lexemes_of_beginsNothing nothing, lexemes_of_beginsNothing nothing]
  | token t l longest ih =>
    have legal := (TokenKind.ne_of_isStop_eq_false longest.isStop_eq).1
    simp only [lexemes_longest longest, List.mem_cons, exists_eq_or_imp] at illegal
    have behind := illegal.resolve_left legal
    have nonempty : l ≠ [] := by
      rintro rfl
      obtain ⟨t, none, -⟩ := behind
      cases lexemes_nil ▸ none
    rw [lexemes_longest longest]
    rw [← List.head?_append_of_ne_nil l nonempty] at longest
    rw [List.append_assoc, lexemes_longest longest, ih behind]

/-- **Scanning has no memory but within a token.**  A text without illegal tokens and a text behind
it are cut into the tokens of the one and then those of the other if and only if no run of letters
and no name goes on over the seam; and a text that ends in an illegal token is cut into the same
tokens whatever stands behind it. -/
theorem tokenize_append (u v : String) :
    ((∀ t ∈ tokenize u, t.kind ≠ .illegal) →
      (tokenize (u ++ v) = tokenize u ++ tokenize v ↔ ¬Merges u.toList v.toList)) ∧
    ((∃ t, (tokenize u).getLast? = some t ∧ t.kind = .illegal) →
      tokenize (u ++ v) = tokenize u) := by
  rw [tokenize_eq_lexemes u, tokenize_eq_lexemes v, tokenize_eq_lexemes (u ++ v),
    String.toList_append]
  refine ⟨lexemes_append_iff, ?_⟩
  rintro ⟨t, last, illegal⟩
  exact lexemes_append_of_illegal ⟨t, List.mem_of_getLast? last, illegal⟩ v.toList

/-- A name that goes on over the seam, one that does not for the blank behind it, and an illegal
token. -/
theorem tokenize_append_names :
    tokenize ("Sa" ++ "'") ≠ tokenize "Sa" ++ tokenize "'" ∧
    tokenize ("Sa " ++ "'") = tokenize "Sa " ++ tokenize "'" ∧
    tokenize ("a?" ++ "S") = tokenize "a?" := by
  have cut : tokenize "Sa" = [⟨.successor, "S"⟩, ⟨.variableName, "a"⟩] := by cbv
  have cutBlank : tokenize "Sa " = [⟨.successor, "S"⟩, ⟨.variableName, "a"⟩] := by cbv
  refine ⟨fun same => ?_, ?_, (tokenize_append _ _).2 ⟨⟨.illegal, "?"⟩, by cbv, rfl⟩⟩
  · exact ((tokenize_append _ _).1 (by rw [cut]; decide)).mp same (by decide)
  · exact ((tokenize_append _ _).1 (by rw [cutBlank]; decide)).mpr (by decide)

end Typographical
