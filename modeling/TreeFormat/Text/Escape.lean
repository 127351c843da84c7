/-!
# Control sequences

Text for a log goes through a filter that takes out what a terminal would not
show: control sequences, strings addressed to the terminal, control characters
other than white space, and the delete character.

`withoutControls` reads a text character by character.  `Place` says where in a
sequence the reader is.  White space is shown inside a control sequence as well,
and the text after it is shown up to the next character that is not; only then
the reader goes on where it was in the sequence.
-/

namespace TreeFormat.Text

/-- Where a reader is in a control sequence. -/
inductive Place where
  /-- Outside all sequences. -/
  | ground
  /-- Behind an escape character. -/
  | escape
  /-- In an escape sequence, behind an intermediate character. -/
  | escapeIntermediate
  /-- In a control sequence, before its final character. -/
  | sequence
  /-- At the start of a device string. -/
  | device
  /-- In the parameters of a device string. -/
  | deviceParameter
  /-- In the intermediate characters of a device string. -/
  | deviceIntermediate
  /-- In a string that a string terminator ends. -/
  | string
  /-- In a command for the terminal, which a bell ends as well. -/
  | command
  deriving DecidableEq, Repr

/-- Whether a control character is white space: a tab, or one that ends a line or
a page. -/
def isSpacing (c : Char) : Bool :=
  c == '\t' || c == '\n' || c == '\r' || c == '\x0c'

/-- Whether a code is that of an intermediate character. -/
def isIntermediate (code : Nat) : Bool :=
  0x20 ≤ code && code ≤ 0x2F

/-- Whether a code is that of a parameter character. -/
def isParameter (code : Nat) : Bool :=
  0x30 ≤ code && code ≤ 0x3F

/-- Whether a code is that of a final character of a control sequence. -/
def isFinal (code : Nat) : Bool :=
  0x40 ≤ code && code ≤ 0x7E

/-- Whether the code of the string terminator is among the bytes of a character
after the first one. -/
def holdsTerminator (c : Char) : Bool :=
  (List.range (c.utf8Size - 1)).any fun index => c.toNat >>> (6 * index) % 64 == 0x1C

namespace Place

/-- The place behind an ASCII character that is no control character and comes
behind an escape character. -/
def ofEscaped (c : Char) : Place :=
  if isIntermediate c.toNat then escapeIntermediate
  else if c = '[' then sequence
  else if c = ']' then command
  else if c = 'P' then device
  else if c = 'X' ∨ c = '^' ∨ c = '_' then string
  else ground

/-- The place behind an ASCII character. -/
def advance (c : Char) (place : Place) : Place :=
  if c.toNat = 0x18 ∨ c.toNat = 0x1A then ground
  else if c.toNat = 0x1B then escape
  else if c.toNat = 0x07 ∧ place = command then ground
  else if c.toNat < 0x20 ∨ c.toNat = 0x7F then place
  else
    match place with
    | escape => ofEscaped c
    | escapeIntermediate => if isIntermediate c.toNat then escapeIntermediate else ground
    | sequence => if isFinal c.toNat then ground else sequence
    | device =>
      if isIntermediate c.toNat then deviceIntermediate
      else if isParameter c.toNat then deviceParameter
      else string
    | deviceParameter =>
      if isIntermediate c.toNat then deviceIntermediate
      else if isParameter c.toNat ∧ c.toNat < 0x3C then deviceParameter
      else string
    | deviceIntermediate => if isIntermediate c.toNat then deviceIntermediate else string
    | ground | string | command => place

/-- Whether a control character acts at once although a sequence is not ended. -/
def actsAtOnce : Place → Bool
  | ground | escape | escapeIntermediate | sequence => true
  | _ => false

/-- Whether an ASCII character is shown. -/
def shows (c : Char) (place : Place) : Bool :=
  if c.toNat < 0x20 then isSpacing c && place.actsAtOnce
  else place = ground && c.toNat != 0x7F

end Place

/-- The characters of a text that a terminal shows.  The reader is at a place,
and `shown` says whether it has just shown a character. -/
def shownFrom (place : Place) (shown : Bool) : List Char → List Char
  | [] => []
  | c :: rest =>
    if 0x80 ≤ c.toNat then
      if shown ∨ place = .ground then c :: shownFrom .ground true rest
      else if place = .string ∧ holdsTerminator c then shownFrom .ground false rest
      else shownFrom place false rest
    else if (if shown then Place.ground else place).shows c then c :: shownFrom place true rest
    else shownFrom (place.advance c) false rest

/-- A text without control sequences and control characters. -/
def withoutControls (text : String) : String :=
  String.ofList (shownFrom .ground false text.toList)

end TreeFormat.Text
