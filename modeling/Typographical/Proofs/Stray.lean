/-
# Characters out of place

Not every character that begins no token is out of place: a prime may stand behind the
letter of a name, or behind another prime.  `Stray` tells what is out of place by the
character and the one before it alone, wherever tokens begin and end.

Blanks and tokens have no stray character in them, and none becomes stray or ceases to
be by what is taken in before it: the longest token leaves no prime behind that it could
have taken (`Token.Longest.hasStray_append`).  So a stray character is what scanning
comes to in the end, if there is one (`Scanner.hasStray_scan`).
-/

import Typographical.Proofs.Longest

namespace Typographical

/-- The letter of a variable, or a prime: a character that a prime may stand behind. -/
def takesPrime (c : Char) : Bool :=
  isVariableLetter c || isPrime c

/-- The character is neither a blank nor part of a token: it begins none, and is no prime that
stands right behind a letter of a variable or another prime. -/
def Stray (before : Option Char) (c : Char) : Prop :=
  BeginsNothing c ∧ ¬(isPrime c = true ∧ ∃ b ∈ before, takesPrime b = true)

/-- Some character of the text is stray, with the given one standing before the text. -/
def HasStray (before : Option Char) (l : List Char) : Prop :=
  ∃ front c back, l = front ++ c :: back ∧ Stray (front.getLast?.or before) c

variable {before : Option Char} {b c : Char} {l : List Char}

theorem not_hasStray_nil : ¬HasStray before [] := by
  rintro ⟨front, c, back, e, -⟩
  exact List.append_ne_nil_of_right_ne_nil front (List.cons_ne_nil c back) e.symm

theorem hasStray_cons : HasStray before (c :: l) ↔ Stray before c ∨ HasStray (some c) l := by
  have last (front : List Char) :
      (c :: front).getLast?.or before = front.getLast?.or (some c) := by
    rw [List.getLast?_cons]
    cases front.getLast? <;> rfl
  constructor
  · rintro ⟨_ | ⟨d, front⟩, c', back, e, stray⟩
    · obtain ⟨rfl, -⟩ := List.cons.inj e
      exact .inl stray
    · obtain ⟨rfl, behind⟩ := List.cons.inj e
      rw [last] at stray
      exact .inr ⟨front, c', back, behind, stray⟩
  · rintro (stray | ⟨front, c', back, rfl, stray⟩)
    · exact ⟨[], c, l, rfl, stray⟩
    · rw [← last] at stray
      exact ⟨c :: front, c', back, rfl, stray⟩

/-- What stands before a text matters only to a prime at its front. -/
theorem hasStray_some (h : takesPrime b = true → ∀ c ∈ l.head?, isPrime c = false) :
    HasStray (some b) l ↔ HasStray none l := by
  cases l with
  | nil => exact iff_of_false not_hasStray_nil not_hasStray_nil
  | cons c l =>
    have noPrime : ¬(isPrime c = true ∧ takesPrime b = true) := by
      rintro ⟨prime, takes⟩
      rw [h takes c rfl] at prime
      cases prime
    rw [hasStray_cons, hasStray_cons]
    refine or_congr_left ?_
    simp [Stray, noPrime]

/-! ### What holds no stray character -/

/-- The character is no stray one anywhere, and a prime behind it is. -/
def Plain (c : Char) : Prop :=
  ¬BeginsNothing c ∧ takesPrime c = false

theorem Plain.hasStray_cons (h : Plain c) : HasStray none (c :: l) ↔ HasStray none l := by
  rw [Typographical.hasStray_cons, or_iff_right fun stray => h.1 stray.1]
  exact hasStray_some fun takes => by simp [h.2] at takes

theorem hasStray_append_of_plain {xs : List Char} (h : ∀ c ∈ xs, Plain c) :
    HasStray none (xs ++ l) ↔ HasStray none l := by
  induction xs with
  | nil => rfl
  | cons c xs ih =>
    obtain ⟨first, others⟩ := List.forall_mem_cons.mp h
    rw [List.cons_append, first.hasStray_cons, ih others]

theorem plain_of_isBlank (h : Text.isBlank c = true) : Plain c := by
  have noLetter : isVariableLetter c = false := by
    rw [← Bool.not_eq_true]
    intro letter
    rw [isBlank_of_isVariableLetter letter] at h
    cases h
  have noPrime : isPrime c = false := by
    rw [isPrime_eq_false_iff]
    rintro rfl
    cases h
  exact ⟨fun nothing => by simp [nothing.1] at h, by simp [takesPrime, noLetter, noPrime]⟩

theorem plain_of_ofChar? {k : TokenKind} (h : TokenKind.ofChar? c = some k) : Plain c := by
  refine ⟨fun nothing => by simp [nothing.2.1] at h, ?_⟩
  unfold TokenKind.ofChar? at h
  split at h <;> first | rfl | contradiction

theorem plain_of_isSuccessorLetter (h : isSuccessorLetter c = true) : Plain c := by
  obtain rfl := isSuccessorLetter_iff.mp h
  exact ⟨fun nothing => absurd nothing.2.2.1 nofun, rfl⟩

/-- Primes behind the letter of a name, or behind a prime, are not stray, and if all are taken the
text behind them is judged as if it stood alone. -/
theorem hasStray_append_of_isPrime {primes : List Char} (takes : takesPrime b = true)
    (all : ∀ c ∈ primes, isPrime c = true) (stops : ∀ c ∈ l.head?, isPrime c = false) :
    HasStray (some b) (primes ++ l) ↔ HasStray none l := by
  induction primes generalizing b with
  | nil => exact hasStray_some fun _ => stops
  | cons c primes ih =>
    obtain ⟨prime, others⟩ := List.forall_mem_cons.mp all
    have inPlace : ¬Stray (some b) c := fun stray => stray.2 ⟨prime, b, rfl, takes⟩
    rw [List.cons_append, hasStray_cons, or_iff_right inPlace]
    exact ih (by simp [takesPrime, prime]) others

/-- **The longest token holds no stray character,** and leaves as many behind as there are. -/
theorem Token.Longest.hasStray_append {t : Token} (h : t.Longest l.head?) :
    HasStray none (t.text.toList ++ l) ↔ HasStray none l := by
  cases h with
  | symbol h =>
    rw [String.toList_ofList]
    exact (plain_of_ofChar? h).hasStray_cons
  | @name c primes letter all stops =>
    have inPlace : ¬Stray none c := fun stray => by simp [stray.1.2.2.2] at letter
    rw [String.toList_ofList, List.cons_append, hasStray_cons, or_iff_right inPlace]
    exact hasStray_append_of_isPrime (by simp [takesPrime, letter]) all stops
  | run some all stops =>
    rw [String.toList_ofList]
    exact hasStray_append_of_plain fun c hc => plain_of_isSuccessorLetter (all c hc)

/-! ### Scanning -/

namespace Scanner

variable {s : Scanner}

/-- A text begins with its first token. -/
theorem text_append_leadingToken (goesOn : (leadingToken l).1.kind.isStop = false) :
    (leadingToken l).1.text.toList ++ (leadingToken l).2 = l := by
  have width : (leadingToken l).1.width = (leadingToken l).1.text.length := by
    simp [Token.width, goesOn]
  have begins := leadingToken_prefix l
  rw [leadingToken_snd, width, ← String.length_toList]
  exact List.prefix_iff_eq_append.mp begins

theorem hasStray_dropWhile_isBlank :
    HasStray none (l.dropWhile Text.isBlank) ↔ HasStray none l := by
  have blanks : ∀ c ∈ l.takeWhile Text.isBlank, Plain c := fun c hc =>
    plain_of_isBlank (List.mem_takeWhile_imp hc)
  have whole := hasStray_append_of_plain (l := l.dropWhile Text.isBlank) blanks
  rw [List.takeWhile_append_dropWhile] at whole
  exact whole.symm

/-- **Scanning neither passes over a stray character nor makes one.** -/
theorem hasStray_scan (goesOn : s.scan.1.kind.isStop = false) :
    HasStray none s.scan.2.rest ↔ HasStray none s.rest := by
  have longest := longest_leadingToken (l := s.rest.dropWhile Text.isBlank) goesOn
  have whole := longest.hasStray_append
  rw [text_append_leadingToken goesOn, hasStray_dropWhile_isBlank] at whole
  exact whole.symm

/-- **An illegal token is a stray character.** -/
theorem hasStray_of_illegal (h : s.scan.1.kind = .illegal) : HasStray none s.rest := by
  obtain ⟨c, rest, e, nothing⟩ :=
    exists_beginsNothing_of_leadingToken h eq_false_of_mem_head?_dropWhile
  rw [← hasStray_dropWhile_isBlank, e, hasStray_cons]
  exact .inl ⟨nothing, fun ⟨_, b, hb, _⟩ => nomatch hb⟩

theorem not_hasStray_of_endOfText (h : s.scan.1.kind = .endOfText) : ¬HasStray none s.rest := by
  rw [← hasStray_dropWhile_isBlank, eq_nil_of_leadingToken h]
  exact not_hasStray_nil

end Scanner
end Typographical
