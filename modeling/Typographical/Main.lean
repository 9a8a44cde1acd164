/-
# The program

The program hands its command line and what is around it to `Command.run` and
writes down what the run leaves behind.  The file a run wants is read before the
run, so that the run itself is a function.
-/

import Std.Time.Format
import Typographical.Command.Run

namespace Typographical
namespace Main

/-- What an error of the system says about a file.  Of the errors about the wrong kind of file,
number 21 is that of a folder. -/
def faultOf : IO.Error → Command.ReadFault
  | .noFileOrDirectory .. => .missing
  | .inappropriateType _ code _ => if code = 21 then .isFolder else .notAFolder
  | .permissionDenied .. => .other "Permission denied"
  | e => .other (toString e)

/-- Reads a file, telling apart the ways in which that fails. -/
def readBytes (path : String) : IO (Except Command.ReadFault ByteArray) := do
  try
    return .ok (← IO.FS.readBinFile path)
  catch e =>
    return .error (faultOf e)

/-- The depth in the environment, the place of the program and the file that the command line
asks for. -/
def surroundings (arguments : List String) : IO Command.Surroundings := do
  let location := toString (← IO.appPath)
  let depthSetting ← IO.getEnv Settings.variableName
  let contents ←
    match Command.fileWanted? arguments with
    | some path => readBytes path
    | none => pure (.error .missing)
  return ⟨location, depthSetting, fun _ => contents⟩

/-- The time, as entries of the log show it. -/
def timeStamp : IO String := do
  let now ← Std.Time.PlainDateTime.now
  return now.format "uuuu-MM-dd HH:mm:ss,SSS"

/-- Writes what a run leaves behind and gives its exit status. -/
def leave : Command.Outcome → IO UInt32
  | .ended status output errors => do
    (← IO.getStdout).putStr output
    for line in errors do
      (← IO.getStderr).putStr (line.render (← timeStamp))
    return status.toUInt32
  | .undecodable => return 1

end Main
end Typographical

/-- Runs the program on its command line. -/
def main (arguments : List String) : IO UInt32 := do
  let surroundings ← Typographical.Main.surroundings arguments
  Typographical.Main.leave
    (Typographical.Command.run Typographical.Command.Library.standard surroundings arguments)
