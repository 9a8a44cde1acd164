/-
# Cutting a text into tokens

Where a text stands has no part in which tokens it is cut into: `lexemes` gives
them for the characters alone, and is what every scanner meets in what it has
left to read (`Scanner.drain_fst_eq_lexemes`).

One lemma for each sort of token cuts it off at the front of a text
(`lexemes_symbol`, `lexemes_name`, `lexemes_run`), another a blank.  A name and a
run take in all they can get, so what stands behind must not go on with a prime
or with one more letter of the run.

`Token.Spelled` lists the ways in which the tokens of a text are spelled.
-/

import Mathlib.Data.List.TakeWhile
import Typographical.Proofs.Scan
import Typographical.Variable

namespace Typographical

/-- The tokens that characters are cut into, up to and including the first illegal one. -/
def lexemes (l : List Char) : List Token :=
  (Scanner.mk l 0 0).drain.1

/-- Scanners with the same text left to read meet the same tokens. -/
theorem Scanner.drain_fst_congr {s s' : Scanner} (h : s.rest = s'.rest) :
    s.drain.1 = s'.drain.1 := by
  induction hn : s.rest.length using Nat.strongRecOn generalizing s s' with
  | ind n ih =>
    subst hn
    have token : s.scan.1 = s'.scan.1 := by simp only [scan, h]
    have left : s.scan.2.rest = s'.scan.2.rest := by simp only [scan, h]
    rw [drain_fst_eq, drain_fst_eq s', ← token]
    refine ite_congr rfl (fun goesOn => ?_) fun _ => rfl
    rw [ih _ (rest_scan_lt goesOn) left rfl]

/-- **A scanner meets the tokens of what it has left to read.** -/
theorem Scanner.drain_fst_eq_lexemes (s : Scanner) : s.drain.1 = lexemes s.rest :=
  drain_fst_congr rfl

theorem tokenize_eq_lexemes (source : String) : tokenize source = lexemes source.toList :=
  (Scanner.ofString source).drain_fst_eq_lexemes

/-- **The tokens of a text are its first and those of what comes behind it.** -/
theorem lexemes_eq (l : List Char) :
    lexemes l =
      let (t, rest) := leadingToken (l.dropWhile Text.isBlank)
      if t.kind.isStop = false then t :: lexemes rest
      else if t.kind = .illegal then [t] else [] := by
  rw [lexemes, Scanner.drain_fst_eq, Scanner.drain_fst_eq_lexemes]
  rfl

/-! ### Cutting off the first token -/

theorem lexemes_of_leadingToken {l rest : List Char} {t : Token}
    (h : leadingToken (l.dropWhile Text.isBlank) = (t, rest)) (goesOn : t.kind.isStop = false) :
    lexemes l = t :: lexemes rest := by
  rw [lexemes_eq, h]
  exact if_pos goesOn

theorem lexemes_nil : lexemes [] = [] := by
  rw [lexemes_eq]
  rfl

/-- **A blank is passed over.** -/
theorem lexemes_blank {c : Char} (h : Text.isBlank c = true) (l : List Char) :
    lexemes (c :: l) = lexemes l := by
  rw [lexemes_eq, lexemes_eq l, List.dropWhile_cons_of_pos h]

theorem TokenKind.isBlank_of_ofChar? {c : Char} {k : TokenKind} (h : ofChar? c = some k) :
    Text.isBlank c = false := by
  unfold ofChar? at h
  split at h <;> first | decide | contradiction

/-- **A symbol of one character is cut off,** whatever comes behind it. -/
theorem lexemes_symbol {c : Char} {k : TokenKind} (h : TokenKind.ofChar? c = some k)
    (l : List Char) : lexemes (c :: l) = ⟨k, String.ofList [c]⟩ :: lexemes l := by
  refine lexemes_of_leadingToken ?_ (TokenKind.isStop_of_ofChar? h)
  rw [List.dropWhile_cons_of_neg (by simp [TokenKind.isBlank_of_ofChar? h])]
  simp only [leadingToken, h]

/-- How a kind is spelled that has a character of its own, and of several one that a keyboard
has. -/
def TokenKind.spelling : TokenKind → String
  | .zero => "0"
  | .openParen => "("
  | .closeParen => ")"
  | .plus => "+"
  | .multiply => "*"
  | .equals => "="
  | .negation => "~"
  | .openAngle => "<"
  | .closeAngle => ">"
  | .thereExists => "E"
  | .forAll => "A"
  | .colon => ":"
  | .and => "^"
  | .or => "V"
  | .ifThen => "⊃"
  | .illegal | .endOfText | .successor | .variableName => ""

theorem lexemes_spelling {k : TokenKind} (h : k.spelling ≠ "") (l : List Char) :
    lexemes (k.spelling.toList ++ l) = ⟨k, k.spelling⟩ :: lexemes l := by
  cases k <;> first | exact lexemes_symbol rfl l | exact absurd rfl h

/-- Characters of a class are all that is taken of it where something else comes behind them. -/
theorem takeWhile_append_of_stops {p : Char → Bool} {xs l : List Char}
    (h : ∀ c ∈ xs, p c = true) (stops : ∀ c ∈ l.head?, p c = false) :
    (xs ++ l).takeWhile p = xs ∧ (xs ++ l).dropWhile p = l := by
  rw [List.takeWhile_append_of_pos h, List.dropWhile_append_of_pos h]
  cases l with
  | nil => simp
  | cons c l =>
    have other : ¬p c = true := by simp [stops c rfl]
    rw [List.takeWhile_cons_of_neg other, List.dropWhile_cons_of_neg other, List.append_nil]
    exact ⟨rfl, rfl⟩

/-- A letter that begins a variable is no blank and no symbol, and begins one. -/
theorem leadingToken_name {c : Char} (h : isVariableLetter c = true) (l : List Char) :
    leadingToken ((c :: l).dropWhile Text.isBlank) =
      (⟨.variableName, String.ofList (c :: l.takeWhile isPrime)⟩, l.dropWhile isPrime) := by
  simp only [isVariableLetter, Bool.or_eq_true, beq_iff_eq] at h
  rcases h with (((rfl | rfl) | rfl) | rfl) | rfl <;> rfl

/-- **A name is cut off,** if no prime comes behind it. -/
theorem lexemes_name {c : Char} {primes l : List Char} (h : isVariableLetter c = true)
    (hp : ∀ c ∈ primes, isPrime c = true) (stops : ∀ c ∈ l.head?, isPrime c = false) :
    lexemes (c :: (primes ++ l)) = ⟨.variableName, String.ofList (c :: primes)⟩ :: lexemes l := by
  obtain ⟨taken, left⟩ := takeWhile_append_of_stops hp stops
  refine lexemes_of_leadingToken ?_ rfl
  rw [leadingToken_name h, taken, left]

/-- A run of the letter that successors are written with. -/
def successors (q : Nat) : String :=
  String.ofList (List.replicate q 'S')

theorem length_successors (q : Nat) : (successors q).length = q := by
  rw [successors, String.length_ofList, List.length_replicate]

/-- **A run is cut off,** if it is not empty and does not go on behind. -/
theorem lexemes_run {q : Nat} {l : List Char} (h : 1 ≤ q)
    (stops : ∀ c ∈ l.head?, isSuccessorLetter c = false) :
    lexemes ((successors q).toList ++ l) = ⟨.successor, successors q⟩ :: lexemes l := by
  obtain ⟨n, rfl⟩ := Nat.exists_eq_add_of_le' h
  have letters : ∀ c ∈ List.replicate n 'S', isSuccessorLetter c = true := by
    intro c hc
    rw [List.eq_of_mem_replicate hc]
    rfl
  obtain ⟨taken, left⟩ := takeWhile_append_of_stops letters stops
  have leading (l : List Char) : leadingToken (('S' :: l).dropWhile Text.isBlank) =
      (⟨.successor, String.ofList ('S' :: l.takeWhile isSuccessorLetter)⟩,
        l.dropWhile isSuccessorLetter) := rfl
  refine lexemes_of_leadingToken ?_ rfl
  rw [successors, String.toList_ofList, List.replicate_succ, List.cons_append, leading, taken, left]

/-! ### How tokens are spelled -/

/-- A name that can be written in a formula: one of the five letters, and primes. -/
def Variable.Writable (v : Variable) : Prop :=
  ∃ letter primes, v.name = String.ofList (letter :: primes) ∧ isVariableLetter letter = true ∧
    ∀ c ∈ primes, isPrime c = true

/-- No other character is in such a name. -/
theorem Variable.Writable.not_mem_name {v : Variable} (h : v.Writable) {c : Char}
    (noLetter : isVariableLetter c = false) (noPrime : isPrime c = false) : c ∉ v.name.toList := by
  obtain ⟨letter, primes, name, isLetter, arePrimes⟩ := h
  rw [name, String.toList_ofList, List.mem_cons]
  rintro (rfl | prime)
  · rw [noLetter] at isLetter
    cases isLetter
  · rw [arePrimes c prime] at noPrime
    cases noPrime

/-- The ways to spell a token; an illegal one is a character that begins no other. -/
inductive Token.Spelled : Token → Prop
  | symbol {c : Char} {k : TokenKind} (h : TokenKind.ofChar? c = some k) :
      Spelled ⟨k, String.ofList [c]⟩
  | name {v : Variable} (h : v.Writable) : Spelled ⟨.variableName, v.name⟩
  | run {q : Nat} (h : 1 ≤ q) : Spelled ⟨.successor, successors q⟩
  | illegal {c : Char} (h : TokenKind.ofChar? c = none) (hv : isVariableLetter c = false)
      (hS : isSuccessorLetter c = false) : Spelled ⟨.illegal, String.ofList [c]⟩

/-- The letters of a run are all alike. -/
theorem Token.spelled_run (l : List Char) :
    Spelled ⟨.successor, String.ofList ('S' :: l.takeWhile isSuccessorLetter)⟩ := by
  have alike : l.takeWhile isSuccessorLetter =
      List.replicate (l.takeWhile isSuccessorLetter).length 'S' := by
    refine List.eq_replicate_of_mem fun c hc => ?_
    have letter : isSuccessorLetter c = true := List.mem_takeWhile_imp hc
    exact eq_of_beq letter
  rw [alike, ← List.replicate_succ]
  exact .run (Nat.le_add_left 1 _)

theorem Token.spelled_leadingToken {l : List Char} (h : (leadingToken l).1.kind ≠ .endOfText) :
    (leadingToken l).1.Spelled := by
  cases l with
  | nil => exact absurd rfl h
  | cons c rest =>
    cases hc : TokenKind.ofChar? c with
    | some k =>
      simp only [leadingToken, hc]
      exact .symbol hc
    | none =>
      by_cases hv : isVariableLetter c = true
      · simp only [leadingToken, hc, hv, if_true]
        exact .name (v := ⟨_⟩) ⟨c, _, rfl, hv, fun _ => List.mem_takeWhile_imp⟩
      · by_cases hS : isSuccessorLetter c = true
        · obtain rfl : c = 'S' := eq_of_beq hS
          exact spelled_run rest
        · simp only [leadingToken, hc, hv, hS]
          exact .illegal hc (Bool.eq_false_iff.mpr hv) (Bool.eq_false_iff.mpr hS)

/-- **The tokens of a text are spelled in one of these ways.** -/
theorem Token.spelled_of_mem_drain {s : Scanner} {t : Token} (h : t ∈ s.drain.1) : t.Spelled := by
  induction hn : s.rest.length using Nat.strongRecOn generalizing s with
  | ind n ih =>
    subst hn
    rw [Scanner.drain_fst_eq] at h
    split at h
    · next goesOn =>
      rcases List.mem_cons.mp h with rfl | h
      · exact spelled_leadingToken fun ends => nomatch ends ▸ goesOn
      · exact ih _ (Scanner.rest_scan_lt goesOn) h rfl
    · split at h
      · next illegal =>
        obtain rfl := List.mem_singleton.mp h
        exact spelled_leadingToken fun ends => nomatch illegal.symm.trans ends
      · cases h

/-- Names and runs are no symbols of one character. -/
theorem TokenKind.ne_of_ofChar? {c : Char} {k : TokenKind} (h : ofChar? c = some k) :
    k ≠ .variableName ∧ k ≠ .successor := by
  unfold ofChar? at h
  split at h <;> first | (cases h; decide) | contradiction

theorem Token.Spelled.writable {name : String} (h : Spelled ⟨.variableName, name⟩) :
    Variable.Writable ⟨name⟩ := by
  cases h with
  | symbol h => exact absurd rfl (TokenKind.ne_of_ofChar? h).1
  | name h => exact h

theorem Token.Spelled.one_le_length {run : String} (h : Spelled ⟨.successor, run⟩) :
    1 ≤ run.length := by
  cases h with
  | symbol h => exact absurd rfl (TokenKind.ne_of_ofChar? h).2
  | run h => rwa [length_successors]

end Typographical
