/-
# Scanning

A scanner is a place in a text.  `Scanner.scan` passes over blanks, reads the
longest token that begins there and remembers where it began.  It takes in no
character for a token at which reading stops, so every later scan finds the
same stop again.

`Scanner.rest_scan_lt` says that any other token shortens what is left to read;
every loop over a scanner ends by it.
-/

import Typographical.Text.Blank
import Typographical.Token

namespace Typographical

/-- The token at the head of a text that begins with no blank, and the text after it. -/
def leadingToken : List Char → Token × List Char
  | [] => (⟨.endOfText, ""⟩, [])
  | c :: rest =>
    match TokenKind.ofChar? c with
    | some kind => (⟨kind, String.ofList [c]⟩, rest)
    | none =>
      if isVariableLetter c then
        (⟨.variableName, String.ofList (c :: rest.takeWhile isPrime)⟩, rest.dropWhile isPrime)
      else if isSuccessorLetter c then
        (⟨.successor, String.ofList (c :: rest.takeWhile isSuccessorLetter)⟩,
          rest.dropWhile isSuccessorLetter)
      else (⟨.illegal, String.ofList [c]⟩, c :: rest)

/-- A place in a text: what is left to read, how many characters come before it, and how many
come before the token that was read last. -/
structure Scanner where
  rest : List Char
  pos : Nat
  offset : Nat
deriving DecidableEq, Repr

namespace Scanner

/-- The scanner at the start of a text. -/
def ofString (source : String) : Scanner :=
  ⟨source.toList, 0, 0⟩

/-- Reads the next token. -/
def scan (s : Scanner) : Token × Scanner :=
  let start := s.pos + (s.rest.takeWhile Text.isBlank).length
  let (token, rest) := leadingToken (s.rest.dropWhile Text.isBlank)
  (token, ⟨rest, start + token.width, start⟩)

/-- Dropping from the front never lengthens a text. -/
theorem length_dropWhile_le (p : Char → Bool) (l : List Char) :
    (l.dropWhile p).length ≤ l.length :=
  (List.dropWhile_sublist p).length_le

/-- **A token that does not stop reading shortens the text.** -/
theorem length_leadingToken_lt {l : List Char}
    (h : (leadingToken l).1.kind.isStop = false) :
    (leadingToken l).2.length < l.length := by
  cases l with
  | nil => simp [leadingToken, TokenKind.isStop] at h
  | cons c rest =>
    have primes := length_dropWhile_le isPrime rest
    have letters := length_dropWhile_le isSuccessorLetter rest
    cases hc : TokenKind.ofChar? c with
    | some kind => simp [leadingToken, hc]
    | none =>
      by_cases hv : isVariableLetter c = true
      · simp only [leadingToken, hc, hv, if_true, List.length_cons]
        omega
      · by_cases hS : isSuccessorLetter c = true
        · simp only [leadingToken, hc, hv, hS, if_true, List.length_cons]
          simp only [Bool.false_eq_true, if_false]
          omega
        · simp [leadingToken, hc, hv, hS, TokenKind.isStop] at h

/-- **Every token but a stop brings the end nearer.** -/
theorem rest_scan_lt {s : Scanner} (h : s.scan.1.kind.isStop = false) :
    s.scan.2.rest.length < s.rest.length :=
  Nat.lt_of_lt_of_le (length_leadingToken_lt h) (length_dropWhile_le _ _)

/-- Reads on to the first stop: the tokens met, an illegal one included and the end of the text
not, and the scanner at the stop. -/
def drain (s : Scanner) : List Token × Scanner :=
  match _read : s.scan with
  | (token, next) =>
    if _goesOn : token.kind.isStop = false then
      let (tokens, last) := next.drain
      (token :: tokens, last)
    else (if token.kind = .illegal then [token] else [], next)
termination_by s.rest.length
decreasing_by
  have shorter := rest_scan_lt (s := s) (by rw [_read]; exact _goesOn)
  rwa [_read] at shorter

end Scanner

/-- The tokens of a text, up to and including the first illegal one. -/
def tokenize (source : String) : List Token :=
  (Scanner.ofString source).drain.1

example : tokenize "SS a\x27S" = [⟨.successor, "SS"⟩, ⟨.variableName, "a\x27"⟩, ⟨.successor, "S"⟩] := by
  cbv

example : tokenize "0?0" = [⟨.zero, "0"⟩, ⟨.illegal, "?"⟩] := by cbv

end Typographical
