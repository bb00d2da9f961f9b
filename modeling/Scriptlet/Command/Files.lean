/-!
# Files

A path is a sequence of names between slashes.  The last one names the file in
diagnostics.  `Files` is a directory held in memory: the bytes of some files by
the names on the way to them.

A path is followed name by name.  A dot stays where it is, two dots lead to the
directory above, and a slash at the end asks for a directory.  Above the
directory itself nothing is known but directories.  A name has at most 255
bytes, and a path fewer than 4096.
-/

namespace Scriptlet.Command

/-- Why a file cannot be read. -/
inductive ReadFailure where
  /-- Nothing is there. -/
  | notFound
  /-- A file stands where a directory is needed. -/
  | notDirectory
  /-- A directory stands where a file is needed. -/
  | isDirectory
  /-- The path or a name in it is too long. -/
  | tooLong
  /-- The bytes are no text. -/
  | notText
  /-- Anything else, in the words of the system. -/
  | other (words : String)
  deriving DecidableEq, Repr

/-- The words for it. -/
def ReadFailure.message : ReadFailure → String
  | .notFound => "No such file or directory (os error 2)"
  | .notDirectory => "Not a directory (os error 20)"
  | .isDirectory => "Is a directory (os error 21)"
  | .tooLong => "File name too long (os error 36)"
  | .notText => "stream did not contain valid UTF-8"
  | .other words => words

/-- The parts of a text between slashes. -/
def betweenSlashes : List Char → List (List Char)
  | [] => [[]]
  | '/' :: rest => [] :: betweenSlashes rest
  | c :: rest =>
      match betweenSlashes rest with
      | [] => [[c]]
      | part :: parts => (c :: part) :: parts

/-- The names of a path.  A slash at the end counts as one more dot. -/
def pathNames (path : String) : List String :=
  let parts := (betweenSlashes path.toList).map String.ofList
  let names := parts.filter (· ≠ "")
  if parts.getLast? = some "" ∧ names ≠ [] then names ++ ["."] else names

/-- The last name of a path. -/
def fileName (path : String) : String :=
  ((pathNames path).filter (· ≠ ".")).getLast?.getD ""

/-- A directory held in memory. -/
structure Files where
  /-- The names on the way to each file, and its bytes. -/
  contents : List (List String × ByteArray)

namespace Files

/-- Where a path leads. -/
inductive Place where
  /-- Somewhere above the directory. -/
  | outside
  /-- To the directory itself or one inside it. -/
  | directory (way : List String)
  /-- To a file. -/
  | file (bytes : ByteArray)

/-- What is found on a way. -/
def lookup? (files : Files) (way : List String) : Option Place :=
  match files.contents.find? (·.1 = way) with
  | some (_, bytes) => some (.file bytes)
  | none => if files.contents.any (way.isPrefixOf ·.1) then some (.directory way) else none

/-- Why a name cannot be found in a directory that does not hold it. -/
def missing (name : String) : ReadFailure :=
  if 255 < name.utf8ByteSize then .tooLong else .notFound

/-- One name further. -/
def step (files : Files) (place : Place) (name : String) : Except ReadFailure Place :=
  match place with
  | .file _ => .error .notDirectory
  | .outside => if name = "." ∨ name = ".." then .ok .outside else .error (missing name)
  | .directory way =>
      if name = "." then .ok (.directory way)
      else if name = ".." then
        .ok (if way = [] then .outside else .directory way.dropLast)
      else match files.lookup? (way ++ [name]) with
        | some next => .ok next
        | none => .error (missing name)

/-- Where a path starts: in the directory, or above it if a slash comes first. -/
def start (path : String) : Place :=
  if ['/'].isPrefixOf path.toList then .outside else .directory []

/-- The text of the file at a path. -/
def read (files : Files) (path : String) : Except ReadFailure String := do
  if path = "" then .error .notFound
  if 4096 ≤ path.utf8ByteSize then .error .tooLong
  match ← (pathNames path).foldlM files.step (start path) with
  | .outside | .directory _ => .error .isDirectory
  | .file bytes =>
      match String.fromUTF8? bytes with
      | some text => .ok text
      | none => .error .notText

end Files

end Scriptlet.Command
