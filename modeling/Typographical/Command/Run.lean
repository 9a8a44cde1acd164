/-
# A run of the program

`Command.run` takes a command line, the libraries to use and what the program finds
around itself, and gives what the run leaves behind: an exit status, the text on
standard output and the lines on standard error.  A run that fails leaves standard
output empty.
-/

import Typographical.Command.Folder
import Typographical.Command.Library
import Typographical.Command.Options
import Typographical.Reading
import Typographical.Report

namespace Typographical
namespace Command

/-- What the program finds around itself: where it is kept, the depth in its environment, and
the files. -/
structure Surroundings where
  location : String
  depthSetting : Option String
  readFile : String → Except ReadFault ByteArray

/-- A line on standard error: an entry of the log, which is stamped when it is written, a notice
of the program about the formula, or plain text. -/
inductive Line
  | logged (entry : String)
  | notice (text : String)
  | plain (text : String)
deriving DecidableEq, Repr

/-- The line as it is written at a given time. -/
def Line.render (time : String) : Line → String
  | logged entry => s!"{time} - DEBUG - {entry}\n"
  | notice text => s!"[TNT] {text}\n"
  | plain text => text ++ "\n"

/-- What a run leaves behind.  A file that is no UTF-8 ends it with nothing written. -/
inductive Outcome
  | ended (status : Nat) (output : String) (errors : List Line)
  | undecodable
deriving DecidableEq, Repr

/-- Lines as one text. -/
def unlines (lines : List String) : String :=
  String.join (lines.map (· ++ "\n"))

/-- The end of a run whose command line was misused. -/
def misused (e : Misuse) : Outcome :=
  .ended 2 "" ((usageLines ++ [s!"{programName}: error: {e.message}"]).map .plain)

/-- The entry in the log about reading a text. -/
def logEntry (source : String) : Except ParseError Formula → String
  | .ok F => s!"parsed {Text.quoted source} as {F.kind}"
  | .error e => s!"failed to parse {Text.quoted source}: {e.message}"

/-- The log about reading a text, if one is asked for. -/
def logLines (o : Options) (source : String) (result : Except ParseError Formula) : List Line :=
  if o.verbose then [.logged (logEntry source result)] else []

/-- The notice about a finding. -/
def Line.ofFinding (f : Finding) : Line :=
  .notice s!"[{f.code}] {f.path}: {f.message}"

/-- The end of a run that has read a formula. -/
def reported (lib : Library) (o : Options) (source : String) (F : Formula) : Outcome :=
  let report := F.report source
  let notices := if report.isWellFormed then [] else report.findings.map .ofFinding
  let status := if !report.isWellFormed && o.strictFail then 1 else 0
  .ended status (lib.json report.document ++ "\n") (logLines o source (.ok F) ++ notices)

/-- The end of a run that has a text to read. -/
def runText (lib : Library) (s : Surroundings) (o : Options) (source : String) : Outcome :=
  match Formula.read lib.validate source (o.maxDepth.map .integer) s.depthSetting with
  | .ok F => reported lib o source F
  | .error (.settings e) => .ended 2 "" [.notice s!"invalid settings: {e.message}"]
  | .error (.refused e) =>
    .ended 2 "" (logLines o source (.error e) ++ [.notice s!"parse error: {e.message}"])

/-- The end of a run that has a file to read. -/
def runFile (lib : Library) (s : Surroundings) (o : Options) (path : String) : Outcome :=
  match s.readFile path with
  | .error fault => .ended 2 "" [.notice s!"cannot read {path}: {fault.reason}"]
  | .ok bytes =>
    match textOfBytes? bytes with
    | some source => runText lib s o source
    | none => .undecodable

/-- The file that is asked for.  A file without a name is none. -/
def Options.file? (o : Options) : Option String :=
  o.file.filter (! ·.isEmpty)

/-- The end of a run that knows what is asked for. -/
def runOptions (lib : Library) (s : Surroundings) (o : Options) : Outcome :=
  if o.version then
    .ended 0 s!"TNT v{versionNumber} @ {s.location}\n" []
  else
    match o.file?, o.formula with
    | some _, some _ => misused .formulaTwice
    | some path, none => runFile lib s o path
    | none, some source => runText lib s o source
    | none, none => misused .formulaMissing

/-- A run of the program. -/
def run (lib : Library) (s : Surroundings) (arguments : List String) : Outcome :=
  match Options.ofArguments arguments with
  | .ok o => runOptions lib s o
  | .error .help => .ended 0 (unlines helpLines) []
  | .error (.misuse e) => misused e

/-- The file that a run with these options reads, if any. -/
def Options.fileWanted? (o : Options) : Option String :=
  if o.version || o.formula.isSome then none else o.file?

/-- The file that a run reads, if any. -/
def fileWanted? (arguments : List String) : Option String :=
  match Options.ofArguments arguments with
  | .ok o => o.fileWanted?
  | .error _ => none

end Command
end Typographical
