/-
# The command line: what it offers

Six switches may be given, by a short name, a long name or both.  Two take a
value.  This module holds their names and the texts that describe them.
-/

namespace Typographical
namespace Command

/-- What may be asked for on the command line. -/
inductive Switch
  | help
  | file
  | maxDepth
  | strictFail
  | verbose
  | version
deriving DecidableEq, Repr, Inhabited

namespace Switch

/-- The names of the switches, in the order in which candidates are listed. -/
def table : List (String × Switch) :=
  [("-h", help), ("--help", help), ("--file", file), ("--max-depth", maxDepth),
    ("--strict-fail", strictFail), ("-v", verbose), ("--verbose", verbose), ("-V", version),
    ("--version", version)]

/-- The switch of a name. -/
def ofName? (name : String) : Option Switch :=
  table.lookup name

/-- Whether a switch takes a value. -/
def takesValue : Switch → Bool
  | file | maxDepth => true
  | _ => false

/-- All the names of a switch, as messages give them. -/
def title (s : Switch) : String :=
  "/".intercalate ((table.filter (·.2 = s)).map Prod.fst)

example : verbose.title = "-v/--verbose" := by decide +kernel

end Switch

/-- The name of the program. -/
def programName : String := "tnt"

/-- The version of the program. -/
def versionNumber : String := "0.1.0"

/-- The lines that show how the program is called. -/
def usageLines : List String :=
  ["usage: tnt [-h] [--file FILE] [--max-depth MAX_DEPTH] [--strict-fail] [-v]",
    "           [-V]",
    "           [formula]"]

/-- The lines that explain the program. -/
def helpLines : List String :=
  usageLines ++
  ["",
    s!"TNT formula checker (v{versionNumber})",
    "",
    "positional arguments:",
    "  formula               Formula to parse, e.g. 'Aa:<a=a^Eb:b=a>'",
    "",
    "options:",
    "  -h, --help            show this help message and exit",
    "  --file FILE           Read the formula from a text file instead",
    "  --max-depth MAX_DEPTH",
    "                        Maximum nesting depth (default: $TNT_MAX_DEPTH or 128)",
    "  --strict-fail         Exit with status 1 if the formula is not well-formed",
    "  -v, --verbose         Log parser activity to stderr",
    "  -V, --version         Print version and module path and exit"]

end Command
end Typographical
