import TreeFormat.Command.Directory
import TreeFormat.Command.Options
import TreeFormat.Format
import TreeFormat.Text.Escape

/-!
# Running the command

A run reads one tree, formats it and prints the text.  Skipped nodes are warned
about; in a strict run they are reported as errors as well, and the run fails
although the text is printed.
-/

namespace TreeFormat.Command

/-- What a run leaves behind. -/
structure Outcome where
  code : Nat
  stdout : String
  stderr : String
  deriving DecidableEq, Repr

/-- A text with every line but the first set behind a bar. -/
def barred (text : String) : String :=
  String.intercalate "\n |  " (text.splitOn "\n")

/-- The warning for a notice.  Only a skipped node is warned about, and nothing
that a terminal would act on gets into a warning. -/
def warning? (notice : Notice) : Option String :=
  notice.skipped?.map fun _ => Text.withoutControls ("[W] " ++ barred notice.message ++ "\n")

/-- What is said before the standard input is read. -/
def readingStdin : String :=
  "No file specified. Reading from stdin...\n"

/-- Formats a text that was read, after something was said. -/
def formatInput (options : Options) (said text : String) : Outcome :=
  let formatted := formatText options.settings text (options.file.getD "")
  let said := said ++ String.join (formatted.notices.filterMap warning?)
  match formatted.result with
  | .error fault => ⟨1, "", said ++ fault.report.draw text true⟩
  | .ok output =>
    let reports := formatted.skipped.map Skipped.report
    if options.strict && !reports.isEmpty then
      ⟨1, output, said ++ Report.drawAll text true reports⟩
    else ⟨0, output, said⟩

/-- Runs the command on a way to read files and on the text of the standard
input. -/
def execute (options : Options) (read : String → Except ReadFault String)
    (stdin : Except ReadFault String) : Outcome :=
  match options.file with
  | some name =>
    match read name with
    | .ok text => formatInput options "" text
    | .error fault => ⟨1, "", "Unable to read " ++ name ++ ": " ++ fault.message ++ "\n"⟩
  | none =>
    match stdin with
    | .ok text => formatInput options readingStdin text
    | .error fault =>
      ⟨1, "", readingStdin ++ "Unable to read from stdin: " ++ fault.message ++ "\n"⟩

/-- The name and the number of this release. -/
def versionLine : String :=
  "rbprint-fmt 0.1.0\n"

/-- How the command is called. -/
def usage : String :=
  "Usage: rbprint-fmt [OPTIONS] [FILE]\n\n" ++
    "Arguments:\n" ++
    "  [FILE]  JSON syntax tree to format (if not specified, reads from stdin)\n\n" ++
    "Options:\n" ++
    "      --width <WIDTH>              Width of the editor [default: 80]\n" ++
    "      --indent-size <INDENT_SIZE>  Indentation size [default: 2]\n" ++
    "      --strict                     Fail when the tree contains node kinds the printer does " ++
    "not know\n" ++
    "  -h, --help                       Print help\n" ++
    "  -V, --version                    Print version\n"

/-- The outcome of arguments that are not options to run with. -/
def Stop.outcome : Stop → Outcome
  | help => ⟨0, usage, ""⟩
  | version => ⟨0, versionLine, ""⟩
  | unknownArgument => ⟨2, "", "error: unexpected argument\n\n" ++ usage⟩
  | badNumber => ⟨2, "", "error: invalid value\n\n" ++ usage⟩
  | missingValue => ⟨2, "", "error: a value is required\n\n" ++ usage⟩
  | repeated => ⟨2, "", "error: an argument cannot be used multiple times\n\n" ++ usage⟩
  | needlessValue => ⟨2, "", "error: unexpected value\n\n" ++ usage⟩

end TreeFormat.Command
