/-!
# Locations in a text

A location is a span of bytes in a text of a given path.
`Location.ofLineColumn` turns a line and a byte column, both counted from one,
into the span of the one character that holds the byte.  Zero counts as one, and
a place behind the text stands for its end.
-/

namespace TreeFormat

/-- A span of bytes, its end excluded. -/
structure Span where
  start : Nat
  stop : Nat
  deriving DecidableEq, Repr

/-- A span in the text of a path. -/
structure Location where
  span : Span
  path : String
  deriving DecidableEq, Repr

/-- The number of bytes of the first lines of a text.  A line includes the
newline that ends it. -/
def bytesOfLines : Nat → List Char → Nat
  | 0, _ => 0
  | _, [] => 0
  | lines + 1, c :: rest =>
    c.utf8Size + if c = '\n' then bytesOfLines lines rest else bytesOfLines (lines + 1) rest

/-- The span of the character of a text that holds the byte at an offset, or the
empty span at the end of the text.  The text starts at `start`. -/
def characterSpan (offset : Nat) : Nat → List Char → Span
  | start, [] => ⟨start, start⟩
  | start, c :: rest =>
    if offset < start + c.utf8Size then ⟨start, start + c.utf8Size⟩
    else characterSpan offset (start + c.utf8Size) rest

/-- The characters of a text whose first byte lies in a span.  The text starts
at `start`. -/
def excerptFrom (span : Span) : Nat → List Char → List Char
  | _, [] => []
  | start, c :: rest =>
    let after := excerptFrom span (start + c.utf8Size) rest
    if span.start ≤ start ∧ start < span.stop then c :: after else after

namespace Location

/-- The location at a line and a byte column of a text. -/
def ofLineColumn (text : String) (line column : Nat) (path : String) : Location where
  span := characterSpan (bytesOfLines (line - 1) text.toList + (column - 1)) 0 text.toList
  path := path

/-- The empty location at the start of no file. -/
def nowhere : Location where
  span := ⟨0, 0⟩
  path := ""

/-- The characters that a location covers. -/
def excerpt (location : Location) (text : String) : String :=
  String.ofList (excerptFrom location.span 0 text.toList)

end Location

/-- The line and the column of an offset in a text: lines are counted from one,
and the column is the number of bytes between the start of the line and the
offset. -/
def lineColumnAt (offset : Nat) (line column : Nat) (start : Nat) : List Char → Nat × Nat
  | [] => (line, column)
  | c :: rest =>
    if offset ≤ start then (line, column)
    else if c = '\n' then lineColumnAt offset (line + 1) 0 (start + 1) rest
    else
      let step := min c.utf8Size (offset - start)
      lineColumnAt offset line (column + step) (start + c.utf8Size) rest

end TreeFormat
