/-
# Scanning again and again

`Scanner.after` scans a number of times, `Scanner.Reads` gives the tokens met on
the way.  Tokens that do not stop reading are the ones `Scanner.drain` begins
with (`Scanner.Reads.drain_fst`, `Scanner.exists_reads_of_drain_fst`), so what is
read from the start of a text is read off `tokenize`.

A scanner never goes back: it passes over some blanks to where the token begins
and over the token to where it ends.  What it has passed over and what is left
make up the text (`Scanner.pos_add_length_scan`), hence the end of a text is
found where the text ends.
-/

import Typographical.Token.Scanner

namespace Typographical

/-- Reading stops at an illegal token and at the end of the text. -/
theorem TokenKind.isStop_iff {k : TokenKind} : k.isStop = true ↔ k = .illegal ∨ k = .endOfText := by
  cases k <;> decide

theorem TokenKind.ne_of_isStop_eq_false {k : TokenKind} (h : k.isStop = false) :
    k ≠ .illegal ∧ k ≠ .endOfText := by
  constructor <;> rintro rfl <;> cases h

namespace Scanner

/-- The scanner after a number of scans. -/
def after (s : Scanner) : Nat → Scanner
  | 0 => s
  | n + 1 => (s.after n).scan.2

/-- Scanning meets the tokens, one after the other, and leaves the last scanner behind. -/
inductive Reads : Scanner → List Token → Scanner → Prop
  | nil (s : Scanner) : Reads s [] s
  | cons {s last : Scanner} {us : List Token} (h : Reads s.scan.2 us last) :
      Reads s (s.scan.1 :: us) last

theorem reads_nil_iff {s last : Scanner} : s.Reads [] last ↔ last = s := by
  constructor
  · rintro ⟨⟩
    rfl
  · rintro rfl
    exact .nil _

theorem reads_cons_iff {s last : Scanner} {t : Token} {us : List Token} :
    s.Reads (t :: us) last ↔ s.scan.1 = t ∧ s.scan.2.Reads us last := by
  constructor
  · rintro ⟨⟩
    exact ⟨rfl, ‹_›⟩
  · rintro ⟨rfl, h⟩
    exact .cons h

theorem after_scan (s : Scanner) (n : Nat) : s.scan.2.after n = s.after (n + 1) := by
  induction n with
  | zero => rfl
  | succ n ih =>
    rw [after, ih]
    rfl

theorem Reads.eq_after {s last : Scanner} {us : List Token} (h : s.Reads us last) :
    last = s.after us.length := by
  induction h with
  | nil s => rfl
  | cons h ih => rw [List.length_cons, ← after_scan, ih]

/-! ### Reading on to the first stop -/

/-- Reading to the first stop goes by the first token. -/
theorem drain_fst_eq (s : Scanner) :
    s.drain.1 =
      if s.scan.1.kind.isStop = false then s.scan.1 :: s.scan.2.drain.1
      else if s.scan.1.kind = .illegal then [s.scan.1] else [] := by
  rw [drain]
  split
  next t later read =>
    rw [read]
    split <;> rfl

theorem drain_fst_of_goesOn {s : Scanner} (h : s.scan.1.kind.isStop = false) :
    s.drain.1 = s.scan.1 :: s.scan.2.drain.1 := by
  rw [drain_fst_eq, if_pos h]

theorem drain_fst_of_endOfText {s : Scanner} (h : s.scan.1.kind = .endOfText) :
    s.drain.1 = [] := by
  rw [drain_fst_eq, h]
  rfl

theorem drain_fst_of_illegal {s : Scanner} (h : s.scan.1.kind = .illegal) :
    s.drain.1 = [s.scan.1] := by
  rw [drain_fst_eq, h]
  rfl

/-- **Tokens that go on are what reading to the first stop begins with.** -/
theorem Reads.drain_fst {s last : Scanner} {us : List Token} (h : s.Reads us last)
    (goesOn : ∀ t ∈ us, t.kind.isStop = false) : s.drain.1 = us ++ last.drain.1 := by
  induction h with
  | nil s => rfl
  | @cons s last us h ih =>
    rw [drain_fst_of_goesOn (goesOn _ List.mem_cons_self),
      ih fun t ht => goesOn t (List.mem_cons_of_mem _ ht), List.cons_append]

/-- **Tokens that go on are scanned one after the other,** with what comes behind them left. -/
theorem exists_reads_of_drain_fst {s : Scanner} {us ws : List Token} (h : s.drain.1 = us ++ ws)
    (goesOn : ∀ t ∈ us, t.kind.isStop = false) : ∃ last, s.Reads us last ∧ last.drain.1 = ws := by
  induction us generalizing s with
  | nil => exact ⟨s, .nil s, h⟩
  | cons u us ih =>
    have first := goesOn u List.mem_cons_self
    rw [List.cons_append] at h
    cases hs : s.scan.1.kind.isStop with
    | false =>
      rw [drain_fst_of_goesOn hs] at h
      obtain ⟨rfl, behind⟩ := List.cons.inj h
      obtain ⟨last, reads, rest⟩ := ih behind fun t ht => goesOn t (List.mem_cons_of_mem _ ht)
      exact ⟨last, .cons reads, rest⟩
    | true =>
      -- a stop is no token that goes on
      rw [drain_fst_eq, hs, if_neg nofun] at h
      split at h
      · obtain ⟨rfl, -⟩ := List.cons.inj h
        rw [hs] at first
        cases first
      · cases h

/-- A scanner has a next token on the way to the first stop unless it is at the end of the text. -/
theorem drain_fst_eq_nil_or_cons (s : Scanner) :
    s.scan.1.kind = .endOfText ∧ s.drain.1 = [] ∨
      s.scan.1.kind ≠ .endOfText ∧ ∃ rest, s.drain.1 = s.scan.1 :: rest := by
  cases hk : s.scan.1.kind with
  | endOfText => exact .inl ⟨rfl, drain_fst_of_endOfText hk⟩
  | illegal => exact .inr ⟨nofun, [], drain_fst_of_illegal hk⟩
  | _ => exact .inr ⟨nofun, _, drain_fst_of_goesOn (by rw [hk]; rfl)⟩

/-! ### Places -/

theorem pos_le_offset_scan (s : Scanner) : s.pos ≤ s.scan.2.offset :=
  Nat.le_add_right ..

theorem offset_scan_le_pos_scan (s : Scanner) : s.scan.2.offset ≤ s.scan.2.pos :=
  Nat.le_add_right ..

/-- A class of characters at the front and what follows it make up a text. -/
theorem length_takeWhile_add_length_dropWhile (p : Char → Bool) (l : List Char) :
    (l.takeWhile p).length + (l.dropWhile p).length = l.length := by
  rw [← List.length_append, List.takeWhile_append_dropWhile]

/-- **What a text begins with.**  A symbol of one character, a variable, a run of successors, or a
character of no symbol, which is left in place. -/
theorem leadingToken_cons_cases (c : Char) (rest : List Char) :
    (∃ kind, kind.isStop = false ∧ leadingToken (c :: rest) = (⟨kind, String.ofList [c]⟩, rest)) ∨
      leadingToken (c :: rest) =
        (⟨.variableName, String.ofList (c :: rest.takeWhile isPrime)⟩, rest.dropWhile isPrime) ∨
      leadingToken (c :: rest) =
        (⟨.successor, String.ofList (c :: rest.takeWhile isSuccessorLetter)⟩,
          rest.dropWhile isSuccessorLetter) ∨
      leadingToken (c :: rest) = (⟨.illegal, String.ofList [c]⟩, c :: rest) := by
  cases hc : TokenKind.ofChar? c with
  | some kind =>
    exact .inl ⟨kind, TokenKind.isStop_of_ofChar? hc, by simp only [leadingToken, hc]⟩
  | none =>
    by_cases hv : isVariableLetter c = true
    · exact .inr (.inl (by simp only [leadingToken, hc, hv, if_true]))
    · by_cases hS : isSuccessorLetter c = true
      · exact .inr (.inr (.inl (by simp [leadingToken, hc, hv, hS])))
      · exact .inr (.inr (.inr (by simp [leadingToken, hc, hv, hS])))

/-- **A token and the text after it make up the text.** -/
theorem width_add_length_leadingToken (l : List Char) :
    (leadingToken l).1.width + (leadingToken l).2.length = l.length := by
  cases l with
  | nil => rfl
  | cons c rest =>
    have primes := length_takeWhile_add_length_dropWhile isPrime rest
    have letters := length_takeWhile_add_length_dropWhile isSuccessorLetter rest
    rcases leadingToken_cons_cases c rest with ⟨kind, goesOn, e⟩ | e | e | e <;> rw [e]
    · simp only [Token.width, goesOn, String.length_ofList, List.length_cons, List.length_nil,
        Bool.false_eq_true, if_false]
      omega
    · simp only [Token.width, TokenKind.isStop, String.length_ofList, List.length_cons,
        Bool.false_eq_true, if_false]
      omega
    · simp only [Token.width, TokenKind.isStop, String.length_ofList, List.length_cons,
        Bool.false_eq_true, if_false]
      omega
    · simp [Token.width, TokenKind.isStop]

/-- **What has been passed over and what is left make up the text.** -/
theorem pos_add_length_scan (s : Scanner) :
    s.scan.2.pos + s.scan.2.rest.length = s.pos + s.rest.length := by
  have token := width_add_length_leadingToken (s.rest.dropWhile Text.isBlank)
  have blanks := length_takeWhile_add_length_dropWhile Text.isBlank s.rest
  simp only [scan]
  omega

theorem Reads.pos_add_length {s last : Scanner} {us : List Token} (h : s.Reads us last) :
    last.pos + last.rest.length = s.pos + s.rest.length := by
  induction h with
  | nil s => rfl
  | cons h ih => rw [ih, pos_add_length_scan]

/-- Only an empty text begins with its end. -/
theorem eq_nil_of_leadingToken {l : List Char} (h : (leadingToken l).1.kind = .endOfText) :
    l = [] := by
  cases l with
  | nil => rfl
  | cons c rest =>
    rcases leadingToken_cons_cases c rest with ⟨kind, goesOn, e⟩ | e | e | e <;> rw [e] at h
    · cases h
      cases goesOn
    all_goals cases h

/-- **The end of a text is found behind all of it.** -/
theorem offset_scan_of_endOfText {s : Scanner} (h : s.scan.1.kind = .endOfText) :
    s.scan.2.offset = s.pos + s.rest.length := by
  have nothing : s.rest.dropWhile Text.isBlank = [] := eq_nil_of_leadingToken h
  have blanks := length_takeWhile_add_length_dropWhile Text.isBlank s.rest
  rw [nothing, List.length_nil] at blanks
  simp only [scan]
  omega

end Scanner

/-- **From the start of a text, the end is found at its length.** -/
theorem Scanner.Reads.offset_of_endOfText {source : String} {last : Scanner} {us : List Token}
    (h : (ofString source).Reads us last) (e : last.scan.1.kind = .endOfText) :
    last.scan.2.offset = source.length := by
  rw [offset_scan_of_endOfText e, h.pos_add_length]
  show 0 + source.toList.length = source.length
  rw [Nat.zero_add, String.length_toList]

end Typographical
