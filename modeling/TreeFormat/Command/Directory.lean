/-!
# Files to read

The command reads one file or its standard input.  `Directory` holds files by
name, so that a run of the command is a function of what it can read.  A name may
lead through directories: a directory exists if a file lies below it.

A path is walked name by name, and the first name that cannot be entered says
why the file cannot be read.
-/

namespace TreeFormat.Command

/-- Why a file cannot be read. -/
inductive ReadFault where
  | notFound | isDirectory | notDirectory | denied | nameTooLong | notText
  /-- Anything else, in the words of the system. -/
  | other (reason : String)
  deriving DecidableEq, Repr

/-- The words for a reading fault. -/
def ReadFault.message : ReadFault → String
  | notFound => "No such file or directory (os error 2)"
  | isDirectory => "Is a directory (os error 21)"
  | notDirectory => "Not a directory (os error 20)"
  | denied => "Permission denied (os error 13)"
  | nameTooLong => "File name too long (os error 36)"
  | notText => "stream did not contain valid UTF-8"
  | other reason => reason

/-- The text that bytes stand for. -/
def decodeText (bytes : ByteArray) : Except ReadFault String :=
  match String.fromUTF8? bytes with
  | some text => .ok text
  | none => .error .notText

/-- The length in bytes of the longest path. -/
def longestPath : Nat := 4095

/-- The length in bytes of the longest name on a path. -/
def longestName : Nat := 255

/-- Files by name, and directories without a file in them. -/
structure Directory where
  files : List (String × ByteArray)
  folders : List String := []

/-- Where a walk along a path stands. -/
inductive Place where
  /-- Outside the directory.  Nothing is known of what lies there. -/
  | outside
  /-- The directory that these names lead to. -/
  | folder (names : List String)
  /-- A file that holds these bytes. -/
  | file (content : ByteArray)

namespace Directory

/-- The names that lead to a file or a directory. -/
def namesOf (path : String) : List String :=
  (path.splitOn "/").filter fun name => name != "" && name != "."

/-- What the names lead to. -/
def find? (directory : Directory) (names : List String) : Option Place :=
  match directory.files.find? fun file => namesOf file.1 == names with
  | some (_, content) => some (.file content)
  | none =>
    let paths := directory.files.map (·.1) ++ directory.folders
    if paths.any fun path => names.isPrefixOf (namesOf path) then some (.folder names) else none

/-- Enters a name.  An empty name and a single dot stay where the walk is, two
dots lead back. -/
def enter (directory : Directory) : Place → String → Except ReadFault Place
  | .file _, _ => .error .notDirectory
  | place, "" => .ok place
  | place, "." => .ok place
  | .outside, ".." => .ok .outside
  | .folder names, ".." => .ok (if names.isEmpty then .outside else .folder names.dropLast)
  | place, name =>
    if longestName < name.utf8ByteSize then .error .nameTooLong
    else
      match place with
      | .folder names => (directory.find? (names ++ [name])).elim (.error .notFound) .ok
      | _ => .error .notFound

/-- Walks along a path. -/
def walk (directory : Directory) (path : String) : Except ReadFault Place :=
  if path.isEmpty then .error .notFound
  else if longestPath < path.utf8ByteSize then .error .nameTooLong
  else (path.splitOn "/").foldlM directory.enter (.folder [])

/-- The directory at the root of a system: the empty file, the standard input
as a file, and the usual directories. -/
def root (stdin : ByteArray) : Directory where
  files := [("dev/null", .empty), ("dev/stdin", stdin)]
  folders := ["bin", "etc", "home", "lib", "opt", "proc", "root", "run", "sbin", "srv", "sys",
    "tmp", "usr", "var"]

/-- The text of the file at a path.  A path that begins with a slash starts at
the root. -/
def read (directory : Directory) (stdin : ByteArray) (path : String) :
    Except ReadFault String := do
  let start := if path.startsWith "/" then root stdin else directory
  match ← start.walk path with
  | .file content => decodeText content
  | _ => .error .isDirectory

end Directory

end TreeFormat.Command
