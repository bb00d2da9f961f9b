import Scriptlet.Command.Run

/-!
# The command line

Runs a command on the files of the system.
-/

namespace Scriptlet.Command

/-- The number of a system error.  Some calls report it negated. -/
def errorNumber (code : UInt32) : UInt32 := if code < 0x80000000 then code else 0 - code

/-- Why the system refused to read a file. -/
def readFailure : IO.Error → ReadFailure
  | .noFileOrDirectory .. => .notFound
  | .inappropriateType _ code details =>
      match errorNumber code with
      | 20 => .notDirectory
      | 21 => .isDirectory
      | _ => .other details
  | .invalidArgument _ code details =>
      if errorNumber code = 36 then .tooLong else .other details
  | .permissionDenied .. => .other "Permission denied (os error 13)"
  | e => .other (toString e)

/-- The text of a file of the system. -/
def readText (path : String) : IO (Except ReadFailure String) := do
  try
    let bytes ← IO.FS.readBinFile path
    match String.fromUTF8? bytes with
    | some text => return .ok text
    | none => return .error .notText
  catch e => return .error (readFailure e)

end Scriptlet.Command

/-- Answers the command line. -/
def main (arguments : List String) : IO UInt32 := do
  let response ← Scriptlet.Command.runWith Scriptlet.Command.readText arguments
  (← IO.getStdout).putStr response.output
  (← IO.getStderr).putStr response.complaint
  return response.status.toUInt32
