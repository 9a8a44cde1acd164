/-
# Cutting a text that is put together

A token reads ahead only as far as it goes on.  Of two texts put together, the first
token is that of the first text whenever it ends in there
(`Scanner.leadingToken_append`), as it always does in front of a blank
(`Scanner.leadingToken_append_blank`).  So texts with blanks between them are cut
into the tokens of the one, then of the next (`lexemes_append_blank`,
`lexemes_intercalate`).
-/

import Typographical.Proofs.Seam

namespace Typographical

/-! ### Runs of a class -/

/-- **A run that ends in the first of two texts is the run of the first text.** -/
theorem takeWhile_append_of_length_le {p : Char → Bool} {xs ys : List Char}
    (h : ((xs ++ ys).takeWhile p).length ≤ xs.length) :
    (xs ++ ys).takeWhile p = xs.takeWhile p ∧ (xs ++ ys).dropWhile p = xs.dropWhile p ++ ys := by
  induction xs with
  | nil =>
    have none : ys.takeWhile p = [] := List.eq_nil_of_length_eq_zero (Nat.le_zero.mp h)
    have whole : ys.takeWhile p ++ ys.dropWhile p = ys := List.takeWhile_append_dropWhile
    rw [none] at whole
    exact ⟨none, whole⟩
  | cons c xs ih =>
    rw [List.cons_append] at h ⊢
    by_cases hc : p c = true
    · rw [List.takeWhile_cons_of_pos hc] at h
      obtain ⟨taken, left⟩ := ih (Nat.le_of_succ_le_succ h)
      rw [List.takeWhile_cons_of_pos hc, List.dropWhile_cons_of_pos hc, taken, left,
        List.takeWhile_cons_of_pos hc, List.dropWhile_cons_of_pos hc]
      exact ⟨rfl, rfl⟩
    · rw [List.takeWhile_cons_of_neg hc, List.dropWhile_cons_of_neg hc,
        List.takeWhile_cons_of_neg hc, List.dropWhile_cons_of_neg hc]
      exact ⟨rfl, rfl⟩

/-- A run does not go on over what begins with a character of no such class. -/
theorem length_takeWhile_append_le {p : Char → Bool} {xs ys : List Char}
    (stops : ∀ c ∈ ys.head?, p c = false) : ((xs ++ ys).takeWhile p).length ≤ xs.length := by
  induction xs with
  | nil =>
    cases ys with
    | nil => exact Nat.le_refl 0
    | cons c ys =>
      have other : ¬p c = true := by simp [stops c rfl]
      rw [List.nil_append, List.takeWhile_cons_of_neg other]
  | cons c xs ih =>
    rw [List.cons_append]
    by_cases hc : p c = true
    · rw [List.takeWhile_cons_of_pos hc]
      exact Nat.succ_le_succ ih
    · rw [List.takeWhile_cons_of_neg hc]
      exact Nat.zero_le _

namespace Scanner

/-! ### The first token -/

/-- **A first token that ends in the first of two texts is the first token of that text.** -/
theorem leadingToken_append {xs ys : List Char} (hx : xs ≠ [])
    (within : (leadingToken (xs ++ ys)).1.text.length ≤ xs.length) :
    leadingToken (xs ++ ys) = ((leadingToken xs).1, (leadingToken xs).2 ++ ys) := by
  cases xs with
  | nil => exact absurd rfl hx
  | cons c xs =>
    rw [List.cons_append] at within ⊢
    cases hc : TokenKind.ofChar? c with
    | some kind => simp only [leadingToken, hc]
    | none =>
      by_cases hv : isVariableLetter c = true
      · simp only [leadingToken, hc, hv, if_true] at within ⊢
        rw [String.length_ofList] at within
        obtain ⟨taken, left⟩ := takeWhile_append_of_length_le (Nat.le_of_succ_le_succ within)
        rw [taken, left]
      · by_cases hS : isSuccessorLetter c = true
        · simp only [leadingToken, hc, hv, hS, if_true, Bool.false_eq_true, if_false] at within ⊢
          rw [String.length_ofList] at within
          obtain ⟨taken, left⟩ := takeWhile_append_of_length_le (Nat.le_of_succ_le_succ within)
          rw [taken, left]
        · simp [leadingToken, hc, hv, hS]

/-- **In front of a blank the first token always ends.** -/
theorem leadingToken_append_blank {xs ys : List Char} (hx : xs ≠ [])
    (blank : ∀ c ∈ ys.head?, Text.isBlank c = true) :
    leadingToken (xs ++ ys) = ((leadingToken xs).1, (leadingToken xs).2 ++ ys) := by
  refine leadingToken_append hx ?_
  cases xs with
  | nil => exact absurd rfl hx
  | cons c xs =>
    have stops (c : Char) (hc : c ∈ ys.head?) : isPrime c = false ∧ isSuccessorLetter c = false :=
      isPrime_and_isSuccessorLetter_of_isBlank (blank c hc)
    have primes : ((xs ++ ys).takeWhile isPrime).length ≤ xs.length :=
      length_takeWhile_append_le fun c hc => (stops c hc).1
    have letters : ((xs ++ ys).takeWhile isSuccessorLetter).length ≤ xs.length :=
      length_takeWhile_append_le fun c hc => (stops c hc).2
    rw [List.cons_append]
    rcases leadingToken_cons_cases c (xs ++ ys) with ⟨kind, -, e⟩ | e | e | e <;>
      rw [e, String.length_ofList, List.length_cons, List.length_cons]
    · exact Nat.succ_le_succ (Nat.zero_le _)
    · exact Nat.succ_le_succ primes
    · exact Nat.succ_le_succ letters
    · exact Nat.succ_le_succ (Nat.zero_le _)

/-- **Blanks that are put in behind a first token leave it as it is.** -/
theorem leadingToken_insert {xs ws ys : List Char} (hx : xs ≠ [])
    (blank : ∀ c ∈ ws, Text.isBlank c = true)
    (within : (leadingToken (xs ++ ys)).1.text.length ≤ xs.length) :
    leadingToken (xs ++ (ws ++ ys)) = ((leadingToken xs).1, (leadingToken xs).2 ++ (ws ++ ys)) := by
  cases ws with
  | nil => exact leadingToken_append hx within
  | cons c ws =>
    refine leadingToken_append_blank hx ?_
    rintro _ ⟨⟩
    exact blank c List.mem_cons_self

end Scanner

/-! ### All tokens -/

/-- Where something other than blanks is left of the first of two texts, blanks in front are passed
over in that text alone. -/
theorem takeWhile_isBlank_append {xs : List Char} (h : xs.dropWhile Text.isBlank ≠ [])
    (ys : List Char) :
    (xs ++ ys).takeWhile Text.isBlank = xs.takeWhile Text.isBlank ∧
      (xs ++ ys).dropWhile Text.isBlank = xs.dropWhile Text.isBlank ++ ys := by
  have lengths := Scanner.length_takeWhile_add_length_dropWhile Text.isBlank xs
  have some : 0 < (xs.dropWhile Text.isBlank).length := List.length_pos_iff.mpr h
  rw [List.takeWhile_append, List.dropWhile_append, if_neg (by omega), if_neg (by simpa using h)]
  exact ⟨rfl, rfl⟩

/-- **Behind a blank a text is cut anew.** -/
theorem lexemes_append_blank {xs ys : List Char} {c : Char} (blank : Text.isBlank c = true)
    (legal : ∀ t ∈ lexemes xs, t.kind ≠ .illegal) :
    lexemes (xs ++ c :: ys) = lexemes xs ++ lexemes ys := by
  rw [(lexemes_append_iff legal).mpr (not_merges_cons_of_isBlank blank), lexemes_blank blank]

/-- **Texts with a blank between them are cut one after the other.** -/
theorem lexemes_intercalate {c : Char} (blank : Text.isBlank c = true) (texts : List (List Char))
    (legal : ∀ xs ∈ texts, ∀ t ∈ lexemes xs, t.kind ≠ .illegal) :
    lexemes ([c].intercalate texts) = texts.flatMap lexemes := by
  induction texts with
  | nil => exact lexemes_nil
  | cons xs texts ih =>
    have behind := ih fun ys hys => legal ys (List.mem_cons_of_mem _ hys)
    rw [List.flatMap_cons, ← behind]
    cases texts with
    | nil => simp [lexemes_nil]
    | cons ys texts =>
      rw [List.intercalate_cons_cons, List.append_assoc, List.singleton_append]
      exact lexemes_append_blank blank (legal xs List.mem_cons_self)

/-- **Texts with spaces between them are cut into the tokens of each.** -/
theorem tokenize_intercalate {texts : List String}
    (legal : ∀ s ∈ texts, ∀ t ∈ tokenize s, t.kind ≠ .illegal) :
    tokenize (" ".intercalate texts) = texts.flatMap tokenize := by
  have cut : tokenize = fun s => lexemes s.toList := funext tokenize_eq_lexemes
  rw [cut] at legal ⊢
  have space : " ".toList = [' '] := rfl
  show lexemes (" ".intercalate texts).toList = _
  rw [String.toList_intercalate, space, ← List.flatMap_map String.toList lexemes]
  refine lexemes_intercalate (by decide) _ fun xs hxs => ?_
  obtain ⟨s, hs, rfl⟩ := List.mem_map.mp hxs
  exact legal s hs

end Typographical
