/-
# Quoted text

Messages show a piece of input between quotation marks: the apostrophe, unless
the text has an apostrophe and no double quotation mark.  The mark itself and
the backslash are written after a backslash; line feed, carriage return and tab
have escapes of their own; any other character that is not printable is written
by its code point, in two, four or eight hexadecimal digits.
-/

import Typographical.Text.Printable

namespace Typographical
namespace Text

/-- A number in lower-case hexadecimal, filled up with zeros to a width. -/
def hexadecimal (width n : Nat) : List Char :=
  let digits := Nat.toDigits 16 n
  List.replicate (width - digits.length) '0' ++ digits

/-- The mark that a text is quoted with. -/
def quotationMark (s : List Char) : Char :=
  if s.contains '\x27' && !s.contains '\x22' then '\x22' else '\x27'

/-- How a character is written between two marks. -/
def quotedChar (mark c : Char) : List Char :=
  if c == mark || c == '\\' then ['\\', c]
  else if c == '\n' then ['\\', 'n']
  else if c == '\r' then ['\\', 'r']
  else if c == '\t' then ['\\', 't']
  else if isPrintable c then [c]
  else if c.toNat < 0x100 then '\\' :: 'x' :: hexadecimal 2 c.toNat
  else if c.toNat < 0x10000 then '\\' :: 'u' :: hexadecimal 4 c.toNat
  else '\\' :: 'U' :: hexadecimal 8 c.toNat

/-- A text between quotation marks. -/
def quoted (s : String) : String :=
  let mark := quotationMark s.toList
  String.ofList (mark :: s.toList.flatMap (quotedChar mark) ++ [mark])

example : quoted "a\x27" = "\x22a\x27\x22" := by cbv

example : quoted "\\\x07" = "\x27\\\\\\x07\x27" := by cbv

end Text
end Typographical
