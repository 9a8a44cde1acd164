/-
# The longest token

Of the tokens that begin at a place the scanner takes the longest: a name with all the
primes behind its letter, a run up to the last of its letters.  `Token.Longest` says so
of a token and the character behind it, and determines the token that a text begins with
(`Scanner.longest_leadingToken`, `Scanner.leadingToken_of_longest`).  Where no token
begins, the first character is illegal (`Scanner.leadingToken_of_beginsNothing`).
-/

import Typographical.Proofs.Place
import Typographical.Proofs.Lexeme

namespace Typographical

/-- The ways to spell a token that reading does not stop at, with the character behind it: of names
and runs all is taken. -/
inductive Token.Longest (behind : Option Char) : Token → Prop
  | symbol {c : Char} {k : TokenKind} (h : TokenKind.ofChar? c = some k) :
      Longest behind ⟨k, String.ofList [c]⟩
  | name {c : Char} {primes : List Char} (letter : isVariableLetter c = true)
      (all : ∀ c ∈ primes, isPrime c = true) (stops : ∀ c ∈ behind, isPrime c = false) :
      Longest behind ⟨.variableName, String.ofList (c :: primes)⟩
  | run {letters : List Char} (some : letters ≠ [])
      (all : ∀ c ∈ letters, isSuccessorLetter c = true)
      (stops : ∀ c ∈ behind, isSuccessorLetter c = false) :
      Longest behind ⟨.successor, String.ofList letters⟩

/-- The character is no blank and begins no token. -/
def BeginsNothing (c : Char) : Prop :=
  Text.isBlank c = false ∧ TokenKind.ofChar? c = none ∧ isSuccessorLetter c = false ∧
    isVariableLetter c = false

/-! ### Classes of characters -/

theorem isSuccessorLetter_iff {c : Char} : isSuccessorLetter c = true ↔ c = 'S' :=
  beq_iff_eq

theorem isSuccessorLetter_eq_false_iff {c : Char} : isSuccessorLetter c = false ↔ c ≠ 'S' :=
  beq_eq_false_iff_ne

theorem isPrime_eq_false_iff {c : Char} : isPrime c = false ↔ c ≠ '\x27' :=
  beq_eq_false_iff_ne

/-- A letter that begins a variable is one of five. -/
theorem isVariableLetter_cases {c : Char} (h : isVariableLetter c = true) :
    c = 'a' ∨ c = 'b' ∨ c = 'c' ∨ c = 'd' ∨ c = 'e' := by
  simpa only [isVariableLetter, Bool.or_eq_true, beq_iff_eq, or_assoc] using h

theorem isBlank_of_isVariableLetter {c : Char} (h : isVariableLetter c = true) :
    Text.isBlank c = false := by
  rcases isVariableLetter_cases h with rfl | rfl | rfl | rfl | rfl <;> rfl

/-- Behind the characters of a class that a text begins with comes none of the class. -/
theorem eq_false_of_mem_head?_dropWhile {p : Char → Bool} {l : List Char} :
    ∀ c ∈ (l.dropWhile p).head?, p c = false := by
  intro c hc
  have behind := List.head?_dropWhile_not p l
  rw [Option.mem_def.mp hc] at behind
  exact behind

namespace Token.Longest

variable {behind : Option Char} {t : Token}

theorem isStop_eq (h : t.Longest behind) : t.kind.isStop = false := by
  cases h with
  | symbol h => exact TokenKind.isStop_of_ofChar? h
  | name letter all stops => rfl
  | run some all stops => rfl

/-- It begins with a character that is no blank. -/
theorem exists_first (h : t.Longest behind) :
    ∃ c rest, t.text = String.ofList (c :: rest) ∧ Text.isBlank c = false := by
  cases h with
  | @symbol c k h => exact ⟨c, [], rfl, TokenKind.isBlank_of_ofChar? h⟩
  | @name c primes letter all stops => exact ⟨c, primes, rfl, isBlank_of_isVariableLetter letter⟩
  | @run letters some all stops =>
    obtain ⟨c, letters, rfl⟩ := List.exists_cons_of_ne_nil some
    obtain rfl := isSuccessorLetter_iff.mp (all c List.mem_cons_self)
    exact ⟨'S', letters, rfl, rfl⟩

theorem text_ne (h : t.Longest behind) : t.text ≠ "" := by
  obtain ⟨c, rest, e, -⟩ := h.exists_first
  simp [e]

end Token.Longest

/-! ### The token that a text begins with -/

namespace Scanner

/-- A text begins with the longest token, unless its first character is a blank or begins none. -/
theorem leadingToken_cons_longest_or (c : Char) (rest : List Char) :
    (leadingToken (c :: rest)).1.Longest (leadingToken (c :: rest)).2.head? ∨
      (leadingToken (c :: rest)).1.kind = .illegal ∧
        (Text.isBlank c = false → BeginsNothing c) := by
  cases hc : TokenKind.ofChar? c with
  | some k =>
    simp only [leadingToken, hc]
    exact .inl (.symbol hc)
  | none =>
    by_cases hv : isVariableLetter c = true
    · simp only [leadingToken, hc, hv, if_true]
      exact .inl (.name hv (fun _ => List.mem_takeWhile_imp) eq_false_of_mem_head?_dropWhile)
    · by_cases hS : isSuccessorLetter c = true
      · simp only [leadingToken, hc, hv, hS]
        refine .inl (.run (List.cons_ne_nil _ _) ?_ eq_false_of_mem_head?_dropWhile)
        exact List.forall_mem_cons.mpr ⟨hS, fun _ => List.mem_takeWhile_imp⟩
      · refine .inr ⟨by simp [leadingToken, hc, hv, hS], fun noBlank => ?_⟩
        exact ⟨noBlank, hc, Bool.eq_false_iff.mpr hS, Bool.eq_false_iff.mpr hv⟩

/-- **The token that a text begins with is the longest.** -/
theorem longest_leadingToken {l : List Char} (goesOn : (leadingToken l).1.kind.isStop = false) :
    (leadingToken l).1.Longest (leadingToken l).2.head? := by
  cases l with
  | nil => cases goesOn
  | cons c rest =>
    obtain longest | ⟨illegal, -⟩ := leadingToken_cons_longest_or c rest
    · exact longest
    · exact absurd illegal (TokenKind.ne_of_isStop_eq_false goesOn).1

/-- **The longest token is the one that a text begins with.** -/
theorem leadingToken_of_longest {t : Token} {l : List Char} (h : t.Longest l.head?) :
    leadingToken (t.text.toList ++ l) = (t, l) := by
  cases h with
  | symbol h => simp [leadingToken, h]
  | @name c primes letter all stops =>
    obtain ⟨taken, left⟩ := takeWhile_append_of_stops all stops
    have begins := leadingToken_name letter (primes ++ l)
    rw [List.dropWhile_cons_of_neg (by simp [isBlank_of_isVariableLetter letter]), taken,
      left] at begins
    simpa using begins
  | @run letters some all stops =>
    obtain ⟨c, letters, rfl⟩ := List.exists_cons_of_ne_nil some
    obtain ⟨first, others⟩ := List.forall_mem_cons.mp all
    obtain rfl := isSuccessorLetter_iff.mp first
    obtain ⟨taken, left⟩ := takeWhile_append_of_stops others stops
    have begins : leadingToken ('S' :: (letters ++ l)) =
        (⟨.successor, String.ofList ('S' :: (letters ++ l).takeWhile isSuccessorLetter)⟩,
          (letters ++ l).dropWhile isSuccessorLetter) := rfl
    rw [taken, left] at begins
    simpa using begins

/-- **A text begins with an illegal token where its first character begins none.** -/
theorem leadingToken_of_beginsNothing {c : Char} (h : BeginsNothing c) (l : List Char) :
    leadingToken (c :: l) = (⟨.illegal, String.ofList [c]⟩, c :: l) := by
  obtain ⟨-, noSymbol, noRun, noName⟩ := h
  simp [leadingToken, noSymbol, noRun, noName]

/-- Where an illegal token is read and no blank stands, the first character begins no token. -/
theorem exists_beginsNothing_of_leadingToken {l : List Char}
    (h : (leadingToken l).1.kind = .illegal)
    (noBlank : ∀ c ∈ l.head?, Text.isBlank c = false) :
    ∃ c rest, l = c :: rest ∧ BeginsNothing c := by
  cases l with
  | nil => cases h
  | cons c rest =>
    obtain longest | ⟨-, nothing⟩ := leadingToken_cons_longest_or c rest
    · exact absurd h (TokenKind.ne_of_isStop_eq_false longest.isStop_eq).1
    · exact ⟨c, rest, rfl, nothing (noBlank c rfl)⟩

end Scanner
end Typographical
