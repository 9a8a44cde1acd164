/-
# Where a scanner stands in a text

What a scanner has left to read is the text from its place on, and the token it
read last begins no later than that place (`Scanner.StandsIn`).  Scanning keeps both,
whatever token is met (`Scanner.StandsIn.scan`), and the text of the token is what
stands in the text at the offset that is remembered (`Scanner.StandsIn.slice_scan`).
-/

import Typographical.Proofs.Scan

namespace Typographical

/-- So many characters of a text from an offset on. -/
def Text.slice (source : String) (offset length : Nat) : String :=
  String.ofList ((source.toList.drop offset).take length)

/-- **What a text goes on with at an offset is the slice there of the same length.** -/
theorem Text.slice_of_prefix {source t : String} {n : Nat}
    (h : t.toList <+: source.toList.drop n) : slice source n t.length = t := by
  obtain ⟨rest, e⟩ := h
  rw [slice, ← e, ← String.length_toList, List.take_left, String.ofList_toList]

namespace Scanner

/-! ### The token at the head of a text -/

/-- Leaving out a class of characters at the front is leaving out so many. -/
theorem dropWhile_eq_drop (p : Char → Bool) (l : List Char) :
    l.dropWhile p = l.drop (l.takeWhile p).length := by
  have behind : (l.takeWhile p ++ l.dropWhile p).drop (l.takeWhile p).length = l.dropWhile p :=
    List.drop_left
  rw [List.takeWhile_append_dropWhile] at behind
  exact behind.symm

/-- A text begins with the text of its first token. -/
theorem leadingToken_prefix (l : List Char) : (leadingToken l).1.text.toList <+: l := by
  cases l with
  | nil => exact List.nil_prefix
  | cons c rest =>
    have primes := List.takeWhile_prefix isPrime (l := rest)
    have letters := List.takeWhile_prefix isSuccessorLetter (l := rest)
    rcases leadingToken_cons_cases c rest with ⟨kind, -, e⟩ | e | e | e <;> rw [e] <;>
      simp only [String.toList_ofList, List.prefix_cons_inj]
    · exact List.nil_prefix
    · exact primes
    · exact letters
    · exact List.nil_prefix

/-- What is left behind a token is the text without the characters that reading it takes in. -/
theorem leadingToken_snd (l : List Char) :
    (leadingToken l).2 = l.drop (leadingToken l).1.width := by
  cases l with
  | nil => rfl
  | cons c rest =>
    have primes := dropWhile_eq_drop isPrime rest
    have letters := dropWhile_eq_drop isSuccessorLetter rest
    rcases leadingToken_cons_cases c rest with ⟨kind, goesOn, e⟩ | e | e | e <;> rw [e]
    · simp [Token.width, goesOn]
    · simp [Token.width, TokenKind.isStop, primes, Nat.add_comm 1]
    · simp [Token.width, TokenKind.isStop, letters, Nat.add_comm 1]
    · simp [Token.width, TokenKind.isStop]

/-! ### Places -/

/-- A scanner that stands in a text: what is left to read is the text from its place on. -/
structure StandsIn (s : Scanner) (source : String) : Prop where
  rest_eq : s.rest = source.toList.drop s.pos
  offset_le : s.offset ≤ s.pos
  pos_le : s.pos ≤ source.length

theorem standsIn_ofString (source : String) : (ofString source).StandsIn source where
  rest_eq := rfl
  offset_le := Nat.le_refl 0
  pos_le := Nat.zero_le _

variable {source : String} {s last : Scanner} {us : List Token}

theorem StandsIn.pos_add_length (h : s.StandsIn source) : s.pos + s.rest.length = source.length := by
  have le := h.pos_le
  rw [h.rest_eq, List.length_drop, String.length_toList]
  omega

/-- Where the next token begins, the text goes on as it does behind the blanks. -/
theorem StandsIn.drop_offset_scan (h : s.StandsIn source) :
    source.toList.drop s.scan.2.offset = s.rest.dropWhile Text.isBlank := by
  rw [dropWhile_eq_drop, h.rest_eq, List.drop_drop, ← h.rest_eq]
  rfl

/-- **Scanning stays in the text.** -/
theorem StandsIn.scan (h : s.StandsIn source) : s.scan.2.StandsIn source where
  rest_eq := by
    have behind : s.scan.2.rest = (source.toList.drop s.scan.2.offset).drop s.scan.1.width := by
      rw [h.drop_offset_scan]
      exact leadingToken_snd _
    rw [behind, List.drop_drop]
    rfl
  offset_le := s.offset_scan_le_pos_scan
  pos_le := by
    have whole := s.pos_add_length_scan
    have total := h.pos_add_length
    omega

/-- **The text of a token stands where the token begins.** -/
theorem StandsIn.slice_scan (h : s.StandsIn source) :
    Text.slice source s.scan.2.offset s.scan.1.text.length = s.scan.1.text := by
  refine Text.slice_of_prefix ?_
  rw [h.drop_offset_scan]
  exact leadingToken_prefix _

/-- The end of the text is found at its length. -/
theorem StandsIn.offset_scan_of_endOfText (h : s.StandsIn source) (e : s.scan.1.kind = .endOfText) :
    s.scan.2.offset = source.length := by
  rw [Scanner.offset_scan_of_endOfText e, h.pos_add_length]

/-! ### Scanning again and again -/

theorem Reads.standsIn (h : s.Reads us last) (hs : s.StandsIn source) : last.StandsIn source := by
  induction h with
  | nil s => exact hs
  | cons h ih => exact ih hs.scan

/-- **Scanning never goes back.** -/
theorem Reads.offset_le_and_pos_le (h : s.Reads us last) (hs : s.offset ≤ s.pos) :
    s.offset ≤ last.offset ∧ s.pos ≤ last.pos := by
  induction h with
  | nil s => exact ⟨Nat.le_refl _, Nat.le_refl _⟩
  | @cons s last us h ih =>
    have offset := s.pos_le_offset_scan
    have pos := s.offset_scan_le_pos_scan
    have rest := ih pos
    omega

/-- Scanning on from where some scans have ended. -/
theorem Reads.trans {mid : Scanner} {vs : List Token} (h : s.Reads us mid) (k : mid.Reads vs last) :
    s.Reads (us ++ vs) last := by
  induction h with
  | nil s => exact k
  | cons h ih => exact .cons (ih k)

/-- One more scan at the end. -/
theorem Reads.snoc (h : s.Reads us last) : s.Reads (us ++ [last.scan.1]) last.scan.2 :=
  h.trans (.cons (.nil _))

/-- The last scan is one from behind the others. -/
theorem Reads.exists_scan {t : Token} (h : s.Reads (us ++ [t]) last) :
    ∃ mid, s.Reads us mid ∧ mid.scan = (t, last) := by
  induction us generalizing s with
  | nil =>
    cases h with
    | cons h =>
      cases h
      exact ⟨s, .nil s, rfl⟩
  | cons u us ih =>
    cases h with
    | cons h =>
      obtain ⟨mid, reads, scan⟩ := ih h
      exact ⟨mid, .cons reads, scan⟩

/-- The scan that follows a reading is behind the first scan of all. -/
theorem Reads.exists_reads_scan (h : s.Reads us last) : ∃ vs, s.scan.2.Reads vs last.scan.2 := by
  cases h with
  | nil s => exact ⟨[], .nil _⟩
  | cons h => exact ⟨_, h.snoc⟩

/-! ### Stops -/

/-- A token at which reading stops is left in place. -/
theorem leadingToken_snd_of_isStop {l : List Char} (h : (leadingToken l).1.kind.isStop = true) :
    (leadingToken l).2 = l := by
  rw [leadingToken_snd, Token.width, if_pos h, List.drop_zero]

/-- Once the characters of a class have been left out at the front, none is there. -/
theorem takeWhile_dropWhile (p : Char → Bool) (l : List Char) :
    (l.dropWhile p).takeWhile p = [] := by
  induction l with
  | nil => rfl
  | cons c l ih =>
    by_cases h : p c = true
    · rw [List.dropWhile_cons_of_pos h, ih]
    · rw [List.dropWhile_cons_of_neg h, List.takeWhile_cons_of_neg h]

/-- **A stop is met again by every later scan,** which moves nothing. -/
theorem scan_scan_of_isStop (h : s.scan.1.kind.isStop = true) :
    s.scan.2.scan = (s.scan.1, s.scan.2) := by
  obtain ⟨l, hl⟩ : ∃ l, l = s.rest.dropWhile Text.isBlank := ⟨_, rfl⟩
  have token : s.scan.1 = (leadingToken l).1 := by rw [hl]; rfl
  rw [token] at h
  have stays : s.scan.2 = ⟨l, s.scan.2.offset, s.scan.2.offset⟩ := by
    have place : s.scan.2 =
        ⟨(leadingToken l).2, s.scan.2.offset + (leadingToken l).1.width, s.scan.2.offset⟩ := by
      rw [hl]
      rfl
    rwa [leadingToken_snd_of_isStop h, Token.width, if_pos h] at place
  have noBlank : l.takeWhile Text.isBlank = [] := by rw [hl, takeWhile_dropWhile]
  have again (n : Nat) : (Scanner.mk l n n).scan = ((leadingToken l).1, ⟨l, n, n⟩) := by
    have whole := List.takeWhile_append_dropWhile (p := Text.isBlank) (l := l)
    rw [noBlank, List.nil_append] at whole
    simp only [Scanner.scan, noBlank, whole, List.length_nil, leadingToken_snd_of_isStop h,
      Token.width, if_pos h, Nat.add_zero]
  rw [stays, token]
  exact again _

end Scanner
end Typographical
