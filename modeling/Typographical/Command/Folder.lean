/-
# Files to read a formula from

A folder is given by the files in it and the folders that are empty, each under
its path.  A path leads through folders only; a name that is not there, a file
where a folder should be and a folder where a file should be are told apart.
Nothing is known of what lies outside but that there are folders on the way up.

The text of a file is its bytes as UTF-8, with the line breaks of all systems
made one, and with blanks taken off its ends.
-/

import Typographical.Text.Blank

namespace Typographical
namespace Command

/-- Why a file cannot be read. -/
inductive ReadFault
  | missing
  | isFolder
  | notAFolder
  | other (reason : String)
deriving DecidableEq, Repr

/-- What a message says about it. -/
def ReadFault.reason : ReadFault → String
  | missing => "No such file or directory"
  | isFolder => "Is a directory"
  | notAFolder => "Not a directory"
  | other text => text

/-- Files and empty folders, each under the names that lead to it. -/
structure Folder where
  files : List (List String × ByteArray)
  folders : List (List String)

namespace Folder

/-- The names in a path. -/
def names (path : String) : List String :=
  (split path.toList).map String.ofList
where
  /-- The pieces of a text between its slashes. -/
  split : List Char → List (List Char)
    | [] => [[]]
    | c :: rest =>
      if c == '/' then [] :: split rest
      else
        match split rest with
        | piece :: pieces => (c :: piece) :: pieces
        | [] => [[c]]

/-- Whether a place is a folder: where the path starts, a given folder, or one on the way to
something given. -/
def isFolder (f : Folder) (place : List String) : Bool :=
  place.isEmpty || f.folders.any (place.isPrefixOf ·) ||
    f.files.any fun (path, _) => place.isPrefixOf path && place != path

/-- What is found where names lead on outside: folders on the way up, and nothing else. -/
def outside (names : List String) : ReadFault :=
  if names.all fun name => name = "" || name = "." || name = ".." then .isFolder else .missing

/-- Follows names from a folder.  An empty name and `.` stay, `..` goes back. -/
def follow (f : Folder) (place : List String) : List String → Except ReadFault ByteArray
  | [] => .error .isFolder
  | name :: rest =>
    if name = "" || name = "." then f.follow place rest
    else if name = ".." then
      if place.isEmpty then .error (outside rest) else f.follow place.dropLast rest
    else
      let place := place ++ [name]
      match f.files.lookup place with
      | some bytes => if rest.isEmpty then .ok bytes else .error .notAFolder
      | none => if f.isFolder place then f.follow place rest else .error .missing

/-- The bytes of the file at a path.  A path that begins with a slash begins outside. -/
def read (f : Folder) (path : String) : Except ReadFault ByteArray :=
  if path.toList.head? = some '/' then .error (outside (names path)) else f.follow [] (names path)

end Folder

/-- A text in which every line ends with a line feed, whether it ended with a carriage return, a
line feed or both. -/
def unifyLineBreaks : List Char → List Char
  | [] => []
  | '\r' :: '\n' :: rest => '\n' :: unifyLineBreaks rest
  | '\r' :: rest => '\n' :: unifyLineBreaks rest
  | c :: rest => c :: unifyLineBreaks rest

/-- The text of a file, if its bytes are UTF-8. -/
def textOfBytes? (bytes : ByteArray) : Option String :=
  (String.fromUTF8? bytes).map fun s =>
    String.ofList (Text.trim Text.isBlank (unifyLineBreaks s.toList))

end Command
end Typographical
