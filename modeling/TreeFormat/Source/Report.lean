import TreeFormat.Source.Line
import TreeFormat.Source.Location
import TreeFormat.Text.Blank
import TreeFormat.Text.GridWidth

/-!
# Reports

A report shows a message, and below it the line of the text that it is about
with an arrow from the labelled character to the label.  A message without a
location takes one line.

A report is drawn as a sequence of strokes, each in one ink, and written with or
without colours.  The line and the arrows below it are drawn on a grid: every
character has a cell, a tab reaches to the next multiple of four characters,
other white space is one column wide, and all other characters are as wide as
they are shown.
-/

namespace TreeFormat

/-- Something to be told to the reader, with a location and a label if it has
one. -/
structure Report where
  message : String
  label? : Option (Location × String)

/-- What a stroke is drawn for. -/
inductive Ink where
  | plain
  /-- The word that opens a report. -/
  | severity
  /-- The frame and the line number. -/
  | frame
  /-- The margin left of the arrows. -/
  | margin
  /-- Characters that are not labelled. -/
  | unlabelled
  /-- The labelled character and the arrow. -/
  | label
  deriving DecidableEq, Repr

/-- The parameters of the terminal sequence that switches to an ink. -/
def Ink.code? : Ink → Option String
  | plain => none
  | severity => some "31"
  | frame => some "38;5;246"
  | margin => some "38;5;240"
  | unlabelled => some "38;5;249"
  | label => some "38;5;201"

/-- Text in one ink. -/
structure Stroke where
  ink : Ink
  text : String
  deriving DecidableEq, Repr

/-- The text of a stroke, with or without colours. -/
def Stroke.write (coloured : Bool) (stroke : Stroke) : String :=
  match coloured, stroke.ink.code? with
  | true, some code => "\x1b[" ++ code ++ "m" ++ stroke.text ++ "\x1b[0m"
  | _, _ => stroke.text

namespace Report

/-! ## The grid -/

/-- What is drawn for the character with an index in its line, and the width of
its cell. -/
def cell (index : Nat) (c : Char) : Char × Nat :=
  if c = '\t' then (' ', 4 - index % 4)
  else if Text.isBlank c then (' ', 1)
  else (c, Text.gridWidth c)

/-- The width of the cell with an index below a line; cells behind the line have
one column. -/
def cellWidth (row : List Char) (index : Nat) : Nat :=
  match row[index]? with
  | some c => (cell index c).2
  | none => 1

/-- A line without the white space at its end. -/
def trimEnd (line : List Char) : List Char :=
  (line.reverse.dropWhile Text.isBlank).reverse

/-- A plain stroke. -/
def plain (text : String) : Stroke :=
  ⟨.plain, text⟩

/-- A run of plain spaces. -/
def gap (count : Nat) : Stroke :=
  plain (String.ofList (List.replicate count ' '))

/-- One character several times, each time as a stroke of its own. -/
def repeated (ink : Ink) (c : Char) (count : Nat) : List Stroke :=
  List.replicate count ⟨ink, String.singleton c⟩

/-- The strokes of the characters of a line.  White space is drawn column by
column. -/
def drawLine (labelled : Nat → Bool) (line : List Char) : List Stroke :=
  line.zipIdx.flatMap fun (c, index) =>
    let ink : Ink := if labelled index then .label else .unlabelled
    let (shown, width) := cell index c
    if Text.isBlank c then repeated ink shown width else [⟨ink, String.singleton shown⟩]

/-- The strokes of a row of arrows below a line, cell by cell. -/
def drawCells (line : List Char) (count : Nat) (draw : Nat → Nat → List Stroke) : List Stroke :=
  (List.range count).flatMap fun index => draw index (cellWidth line index)

/-- A mark at the start of a cell, and a filling behind it.  A cell without
width shows nothing. -/
def markCell (mark : Char) (fill : Nat → List Stroke) : Nat → List Stroke
  | 0 => []
  | rest + 1 => ⟨.label, String.singleton mark⟩ :: fill rest

/-- The row that points up to the labelled character. -/
def pointerRow (line : List Char) (start : Nat) (isEmpty : Bool) : List Stroke :=
  let count := start + if isEmpty then 2 else 3
  let mark := if isEmpty then '│' else '┬'
  let fill (rest : Nat) : List Stroke := if isEmpty then [gap rest] else repeated .label '─' rest
  drawCells line count fun index width =>
    if index = start then markCell mark fill width else [gap width]

/-- The row that leads from below the labelled character to the label. -/
def leaderRow (line : List Char) (start : Nat) (isEmpty : Bool) : List Stroke :=
  let count := start + if isEmpty then 2 else 3
  drawCells line count fun index width =>
    if index < start then [gap width]
    else if index = start then markCell '╰' (repeated .label '─') width
    else repeated .label '─' width

/-! ## The whole report -/

/-- The strokes of a report with a label, row by row. -/
def labelledRows (source : String) (message : String) (location : Location) (label : String) :
    List (List Stroke) :=
  let place := placeAt source location.span.start
  let line := trimEnd place.line
  let isEmpty := location.span.start = location.span.stop
  let number := toString (place.number + 1)
  let digits := number.length
  let reference :=
    " " ++ location.path ++ ":" ++ number ++ ":" ++ toString (place.column + 1) ++ " "
  let margin : List Stroke :=
    [gap 1, ⟨.margin, String.ofList (List.replicate (digits + 1) ' ') ++ "│"⟩, gap 1]
  let labelled (index : Nat) : Bool := !isEmpty && index == place.column
  [[⟨.severity, "Error:"⟩, plain (" " ++ message)],
    [gap (digits + 2), ⟨.frame, "╭"⟩, ⟨.frame, "─"⟩, ⟨.frame, "["⟩, plain reference, ⟨.frame, "]"⟩],
    [gap (digits + 2), ⟨.frame, "│"⟩],
    [gap 1, ⟨.frame, number ++ " │"⟩, gap 1] ++ drawLine labelled line,
    margin ++ pointerRow line place.column isEmpty,
    margin ++ leaderRow line place.column isEmpty ++ [plain (" " ++ label)],
    [⟨.frame, String.ofList (List.replicate (digits + 2) '─') ++ "╯"⟩]]

/-- A row of strokes with its line break. -/
def writeRow (coloured : Bool) (row : List Stroke) : String :=
  String.join (row.map (Stroke.write coloured)) ++ "\n"

/-- The text of a report about a source text. -/
def draw (source : String) (coloured : Bool) (report : Report) : String :=
  match report.label? with
  | none => "Error: " ++ report.message ++ "\n"
  | some (location, label) =>
    String.join ((labelledRows source report.message location label).map (writeRow coloured))

/-- The text of several reports about a source text. -/
def drawAll (source : String) (coloured : Bool) (reports : List Report) : String :=
  String.join (reports.map (draw source coloured))

/-- The messages of several reports, one on a line. -/
def messages (reports : List Report) : String :=
  String.intercalate "\n" (reports.map Report.message)

end Report

end TreeFormat
