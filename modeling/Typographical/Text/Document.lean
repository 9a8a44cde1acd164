/-
# Structured documents

A report leaves the program as a JSON document, in one of two layouts.  The
compact layout has no space outside the strings.  The indented layout puts each
member on a line of its own, two spaces deeper than what holds it; a list or an
object without members stays on its line.

In strings the double quotation mark, the backslash and the characters below
U+0020 are escaped, the latter by a letter where JSON has one; everything else
stands as it is.
-/

import Typographical.Text.Quoted

namespace Typographical
namespace Text

/-- A document of texts, truth values, lists and objects whose members keep their order. -/
inductive Document
  | text (s : String)
  | truth (b : Bool)
  | list (items : List Document)
  | object (members : List (String × Document))

namespace Document

/-- How a character is written inside a string. -/
def escapedChar (c : Char) : List Char :=
  if c == '\x22' then ['\\', '\x22']
  else if c == '\\' then ['\\', '\\']
  else if c == '\x08' then ['\\', 'b']
  else if c == '\x0c' then ['\\', 'f']
  else if c == '\n' then ['\\', 'n']
  else if c == '\r' then ['\\', 'r']
  else if c == '\t' then ['\\', 't']
  else if c.toNat < 0x20 then '\\' :: 'u' :: hexadecimal 4 c.toNat
  else [c]

/-- A string between double quotation marks. -/
def stringLiteral (s : String) : String :=
  String.ofList ('\x22' :: s.toList.flatMap escapedChar ++ ['\x22'])

/-- The word for a truth value. -/
def truthWord (b : Bool) : String :=
  if b then "true" else "false"

mutual

/-- The layout without spaces. -/
def compact : Document → String
  | .text s => stringLiteral s
  | .truth b => truthWord b
  | .list items => "[" ++ ",".intercalate (compactItems items) ++ "]"
  | .object members => "\x7b" ++ ",".intercalate (compactMembers members) ++ "\x7d"

/-- The items of a list, each in the layout without spaces. -/
def compactItems : List Document → List String
  | [] => []
  | item :: items => compact item :: compactItems items

/-- The members of an object, each in the layout without spaces. -/
def compactMembers : List (String × Document) → List String
  | [] => []
  | (key, value) :: members => (stringLiteral key ++ ":" ++ compact value) :: compactMembers members

end

/-- A line break and the space in front of a member at the given level. -/
def lineStart (level : Nat) : String :=
  String.ofList ('\n' :: List.replicate (2 * level) ' ')

/-- Members on lines of their own between two brackets that stand at the given level. -/
def block (level : Nat) (opening closing : String) (members : List String) : String :=
  if members.isEmpty then opening ++ closing
  else opening ++ lineStart (level + 1) ++ ("," ++ lineStart (level + 1)).intercalate members
    ++ lineStart level ++ closing

mutual

/-- The layout with one member on a line, for a document that stands at the given level. -/
def indentedAt (level : Nat) : Document → String
  | .text s => stringLiteral s
  | .truth b => truthWord b
  | .list items => block level "[" "]" (indentedItems (level + 1) items)
  | .object members => block level "\x7b" "\x7d" (indentedMembers (level + 1) members)

/-- The items of a list, each laid out at the given level. -/
def indentedItems (level : Nat) : List Document → List String
  | [] => []
  | item :: items => indentedAt level item :: indentedItems level items

/-- The members of an object, each laid out at the given level. -/
def indentedMembers (level : Nat) : List (String × Document) → List String
  | [] => []
  | (key, value) :: members =>
    (stringLiteral key ++ ": " ++ indentedAt level value) :: indentedMembers level members

end

/-- The layout with one member on a line. -/
def indented (d : Document) : String :=
  indentedAt 0 d

end Document
end Text
end Typographical
