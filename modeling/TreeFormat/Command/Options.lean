import TreeFormat.Layout.Render
import TreeFormat.Text.Quoted

/-!
# Options of the command

The command takes one file at most, `--width` and `--indent-size` with a number,
and `--strict`.  A number stands behind an equals sign or is the next argument.
`--` ends the options, and `-` is the name of a file.  `-h` and `--help` ask for
help, `-V` and `--version` for the version.

An argument that waits for its value, and a file, are only looked at when the
next argument is taken or the arguments end.  An argument that is not known
stops the reading before that.
-/

namespace TreeFormat.Command

/-- What the command is asked to do. -/
structure Options where
  file : Option String := none
  settings : Settings := {}
  strict : Bool := false
  deriving DecidableEq, Repr

/-- Why arguments are not options to run with. -/
inductive Stop where
  /-- There is no such option, or a file too many. -/
  | unknownArgument
  /-- A number was expected. -/
  | badNumber
  /-- An option lacks its value, or the name of the file is empty. -/
  | missingValue
  /-- An option comes twice. -/
  | repeated
  /-- A flag has a value. -/
  | needlessValue
  | help
  | version
  deriving DecidableEq, Repr

/-- An option with a number. -/
inductive NumberOption where
  | width | indentSize
  deriving DecidableEq, Repr

/-- The number that a text of decimal digits stands for, if it fits into 64
bits.  A plus sign may come first. -/
def number? (text : String) : Option Nat :=
  let digits :=
    match text.toList with
    | '+' :: rest => rest
    | chars => chars
  if digits.isEmpty || !digits.all Char.isDigit then none
  else
    let value := digits.foldl (fun value c => value * 10 + (c.toNat - '0'.toNat)) 0
    if value < Nat.pow 2 64 then some value else none

/-- An argument that is not yet looked at. -/
inductive Pending where
  | number (option : NumberOption) (value : Option String)
  | file (name : String)
  deriving DecidableEq, Repr

/-- What was read so far. -/
structure Progress where
  file : Option String := none
  width : Option Nat := none
  indentSize : Option Nat := none
  strict : Bool := false
  pending : Option Pending := none
  /-- Whether a file was named. -/
  named : Bool := false
  deriving DecidableEq, Repr

namespace Progress

/-- Sets an option to a number. -/
def setNumber (progress : Progress) (option : NumberOption) (value : String) :
    Except Stop Progress :=
  let earlier :=
    match option with
    | .width => progress.width
    | .indentSize => progress.indentSize
  if earlier.isSome then .error .repeated
  else
    match number? value, option with
    | none, _ => .error .badNumber
    | some number, .width => .ok { progress with width := some number }
    | some number, .indentSize => .ok { progress with indentSize := some number }

/-- Looks at the argument that is pending. -/
def settle (progress : Progress) : Except Stop Progress :=
  match progress.pending with
  | none => .ok progress
  | some (.number _ none) => .error .missingValue
  | some (.number option (some value)) => setNumber { progress with pending := none } option value
  | some (.file name) =>
    if name.isEmpty then .error .missingValue
    else .ok { progress with pending := none, file := some name }

/-- Takes a flag. -/
def setStrict (progress : Progress) : Except Stop Progress := do
  let settled ← progress.settle
  if settled.strict then throw .repeated
  return { settled with strict := true }

/-- Takes the start of an option with a number; the value is there if it was
attached. -/
def startNumber (progress : Progress) (option : NumberOption) (attached : Option String) :
    Except Stop Progress := do
  let settled ← progress.settle
  match attached with
  | some value => setNumber settled option value
  | none => return { settled with pending := some (.number option none) }

/-- Stops with a request once the pending argument is found to be in order. -/
def request (progress : Progress) (stop : Stop) : Except Stop Progress := do
  let _ ← progress.settle
  throw stop

/-- Takes an argument that starts with two dashes. -/
def takeLong (progress : Progress) (name : String) (attached : Option String) :
    Except Stop Progress :=
  match name, attached with
  | "width", _ => progress.startNumber .width attached
  | "indent-size", _ => progress.startNumber .indentSize attached
  | "strict", none => progress.setStrict
  | "help", none => progress.request .help
  | "version", none => progress.request .version
  | "strict", some _ | "help", some _ | "version", some _ => .error .needlessValue
  | _, _ => .error .unknownArgument

/-- Takes an argument that starts with one dash, from its first letter on. -/
def takeShort (progress : Progress) (letter : Char) : Except Stop Progress :=
  if letter = 'h' then progress.request .help
  else if letter = 'V' then progress.request .version
  else .error .unknownArgument

/-- Takes the name of a file. -/
def takeFile (progress : Progress) (name : String) : Except Stop Progress := do
  if progress.named then throw .unknownArgument
  let settled ← progress.settle
  return { settled with pending := some (.file name), named := true }

/-- Takes an argument that is not an option: the value that an option waits for,
or a file. -/
def takePlain (progress : Progress) (text : String) : Except Stop Progress :=
  match progress.pending with
  | some (.number option none) =>
    .ok { progress with pending := some (.number option (some text)) }
  | _ => progress.takeFile text

end Progress

/-- The name of a long option and the value attached to it. -/
def splitLong (chars : List Char) : String × Option String :=
  match chars.dropWhile (· != '=') with
  | [] => (String.ofList chars, none)
  | _ :: value => (String.ofList (chars.takeWhile (· != '=')), some (String.ofList value))

/-- Takes the arguments behind `--`. -/
def takeFiles : Progress → List String → Except Stop Progress
  | progress, [] => progress.settle
  | progress, name :: rest => do
    takeFiles (← progress.takeFile name) rest

/-- Takes one argument after the other. -/
def takeAll : Progress → List String → Except Stop Progress
  | progress, [] => progress.settle
  | progress, argument :: rest =>
    match argument.toList with
    | ['-', '-'] => takeFiles progress rest
    | '-' :: '-' :: long => do
      let (name, attached) := splitLong long
      takeAll (← progress.takeLong name attached) rest
    | '-' :: letter :: _ => do
      takeAll (← progress.takeShort letter) rest
    | _ => do
      takeAll (← progress.takePlain argument) rest

namespace Options

/-- The options that arguments stand for. -/
def parse (arguments : List String) : Except Stop Options := do
  let progress ← takeAll {} arguments
  let defaults : Settings := {}
  return {
    file := progress.file
    settings := ⟨progress.width.getD defaults.width, progress.indentSize.getD defaults.indentSize⟩
    strict := progress.strict }

/-- The options in words, for diagnosis. -/
def describe (options : Options) : String :=
  let file :=
    match options.file with
    | some name => "Some(" ++ Text.quoted name ++ ")"
    | none => "None"
  "Args \x7b file: " ++ file ++ ", width: " ++ toString options.settings.width ++
    ", indent_size: " ++ toString options.settings.indentSize ++
    ", strict: " ++ (if options.strict then "true" else "false") ++ " \x7d"

end Options

end TreeFormat.Command
