import Scriptlet.Command.Files
import Scriptlet.Diagnostic.Basic
import Scriptlet.Outline.Program
import Scriptlet.Program.Parse
import Scriptlet.Program.Written

/-!
# Running a command

The command line names one file, and may carry two flags in any order and any
number.  The first argument that does not fit is the one complained of.

A command reads one file, and shows the program in it or the first thing that
is wrong.  What it says goes either to the standard output or to the standard
error, never to both, and the status tells which: 0 for a program, 1 for a file
that cannot be read or is no program, 2 for a command line that makes no sense.

A command that cannot make its report is stopped with status 101.  It has said
nothing by then, and what the system says of it is left out.
-/

namespace Scriptlet.Command

/-! ## Requests -/

/-- What a command line asks for. -/
structure Request where
  /-- The path of the file to read. -/
  path : String
  /-- How declarations are recognised. -/
  mode : Detection
  /-- Whether the program is written, and not outlined. -/
  writes : Bool
  deriving DecidableEq, Repr

/-- What is wrong with a command line. -/
inductive UsageError where
  /-- A flag that does not exist. -/
  | unknownFlag (flag : String)
  /-- A second file. -/
  | unexpectedArgument (argument : String)
  /-- No file at all. -/
  | noFile
  deriving DecidableEq, Repr

/-- What is said about a command line. -/
def UsageError.message : UsageError → String
  | .unknownFlag flag => "unknown flag `" ++ flag ++ "`"
  | .unexpectedArgument argument => "unexpected argument `" ++ argument ++ "`"
  | .noFile => "no input file given"

/-- The flags and the file found so far. -/
structure Found where
  /-- The file. -/
  path : Option String := none
  /-- How declarations are recognised. -/
  mode : Detection := .forwardScan
  /-- Whether the program is written. -/
  writes : Bool := false

/-- Whether an argument is a flag. -/
def isFlag (argument : String) : Bool := ['-', '-'].isPrefixOf argument.toList

/-- One more argument. -/
def Found.add (found : Found) (argument : String) : Except UsageError Found :=
  if argument = "--anchored" then .ok { found with mode := .anchored }
  else if argument = "--print" then .ok { found with writes := true }
  else if isFlag argument then .error (.unknownFlag argument)
  else match found.path with
    | none => .ok { found with path := some argument }
    | some _ => .error (.unexpectedArgument argument)

/-- What a command line asks for. -/
def Request.ofArguments (arguments : List String) : Except UsageError Request := do
  let found ← arguments.foldlM Found.add {}
  match found.path with
  | none => .error .noFile
  | some path => .ok ⟨path, found.mode, found.writes⟩

/-! ## Responses -/

/-- What a command says. -/
structure Response where
  /-- The standard output. -/
  output : String
  /-- The standard error. -/
  complaint : String
  /-- The exit status. -/
  status : UInt8
  deriving DecidableEq, Repr

/-- How the command is called. -/
def usage : String := "usage: script_parser <file> [--anchored] [--print]"

/-- The response to a command line that makes no sense. -/
def UsageError.response (e : UsageError) : Response :=
  ⟨"", e.message ++ "\n" ++ usage ++ "\n", 2⟩

namespace Request

/-- The program of a text in the file that is asked for. -/
def program (request : Request) (source : String) : Except Diagnostic Program :=
  Program.ofSource request.mode (fileName request.path) source

/-- How a program is shown. -/
def shown (request : Request) (program : Program) : String :=
  if request.writes then program.written request.mode
  else program.outline.pretty 0 ++ "\n"

/-- The response once the file has been read. -/
def response (request : Request) : Except ReadFailure String → Response
  | .error failure =>
      ⟨"", "Failed to read " ++ request.path ++ ": " ++ failure.message ++ "\n", 1⟩
  | .ok source =>
      match request.program source with
      | .error diagnostic =>
          let status : UInt8 := if (diagnostic.report? source).isSome then 1 else 101
          ⟨"", diagnostic.report source, status⟩
      | .ok program => ⟨request.shown program, "", 0⟩

end Request

/-- The response to a command line, where `read` gets the text of a file.  No
file is read unless the command line makes sense. -/
def runWith {m : Type → Type} [Monad m] (read : String → m (Except ReadFailure String))
    (arguments : List String) : m Response :=
  match Request.ofArguments arguments with
  | .error e => return e.response
  | .ok request => request.response <$> read request.path

/-- The response to a command line, where the text of every file is known. -/
def run (read : String → Except ReadFailure String) (arguments : List String) : Response :=
  Id.run (runWith (fun path => pure (read path)) arguments)

end Scriptlet.Command
