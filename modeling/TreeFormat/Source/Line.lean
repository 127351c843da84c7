import TreeFormat.Text.Bytes

/-!
# Lines of a text

For a reader a line ends at a carriage return with or without a line feed behind
it, at a line feed, a vertical tab, a form feed, a next-line character, or a
line or paragraph separator.  A line includes what ends it.  The text behind the
last end is a line of its own only if there is some, but an empty text has one
empty line.
-/

namespace TreeFormat

/-- Whether a character ends a line; a carriage return does so only if no line
feed follows. -/
def endsLine (c : Char) (next : Option Char) : Bool :=
  if c = '\r' then next != some '\n'
  else c == '\n' || c == '\x0b' || c == '\x0c' || c == '\x85' || c == '\u2028' || c == '\u2029'

/-- Cuts a text into lines, given the start of the first line in reverse. -/
def linesFrom : List Char → List Char → List (List Char)
  | [], [] => []
  | begun, [] => [begun.reverse]
  | begun, c :: rest =>
    if endsLine c rest.head? then (c :: begun).reverse :: linesFrom [] rest
    else linesFrom (c :: begun) rest

/-- The lines of a text. -/
def textLines (text : List Char) : List (List Char) :=
  match linesFrom [] text with
  | [] => [[]]
  | lines => lines

/-- A place in a line: the number of the line, counted from zero, the line, and
the number of characters before the place. -/
structure LinePlace where
  number : Nat
  line : List Char
  column : Nat
  deriving DecidableEq, Repr

/-- The number of characters of a line whose first byte comes before an offset.
The line starts at `start`. -/
def charsBefore (offset : Nat) : Nat → List Char → Nat
  | _, [] => 0
  | start, c :: rest =>
    if start < offset then charsBefore offset (start + c.utf8Size) rest + 1 else 0

/-- Finds the line that holds an offset; the last line holds all offsets behind
the text.  The first line of the list has the number `number` and starts at
`start`. -/
def placeFrom (offset : Nat) : Nat → Nat → List (List Char) → LinePlace
  | number, _, [] => ⟨number, [], 0⟩
  | number, start, [line] => ⟨number, line, charsBefore offset start line⟩
  | number, start, line :: lines =>
    if offset < start + Text.byteLength line then ⟨number, line, charsBefore offset start line⟩
    else placeFrom offset (number + 1) (start + Text.byteLength line) lines

/-- The place of an offset in the lines of a text. -/
def placeAt (text : String) (offset : Nat) : LinePlace :=
  placeFrom offset 0 0 (textLines text.toList)

end TreeFormat
