/-
# Blank characters

Two classes of characters count as blank, and they differ in four members.
`isWhiteSpace` is the Unicode property White_Space; numerals are trimmed of it.
`isBlank` adds the four information separators U+001C to U+001F; formulas are
scanned past it and the text of a file is trimmed of it.

Both are decided by code point, so that a proof about a formula may compute
with them.
-/

namespace Typographical
namespace Text

/-- The Unicode property White_Space. -/
def isWhiteSpace (c : Char) : Bool :=
  let n := c.toNat
  (0x09 ≤ n && n ≤ 0x0D) || n == 0x20 || n == 0x85 || n == 0xA0 || n == 0x1680 ||
    (0x2000 ≤ n && n ≤ 0x200A) || n == 0x2028 || n == 0x2029 || n == 0x202F ||
    n == 0x205F || n == 0x3000

/-- The information separators: file, group, record and unit. -/
def isInformationSeparator (c : Char) : Bool :=
  0x1C ≤ c.toNat && c.toNat ≤ 0x1F

/-- A character that may stand between the symbols of a formula. -/
def isBlank (c : Char) : Bool :=
  isWhiteSpace c || isInformationSeparator c

/-- What is left of a text when the characters of a class are taken off both ends. -/
def trim (p : Char → Bool) (s : List Char) : List Char :=
  ((s.dropWhile p).reverse.dropWhile p).reverse

example : isBlank '\x1c' = true ∧ isWhiteSpace '\x1c' = false := by decide

example : isBlank '\u200b' = false ∧ isBlank '\u3000' = true := by decide

end Text
end Typographical
