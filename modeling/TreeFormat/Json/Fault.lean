import TreeFormat.Text.Bytes

/-!
# Faults in JSON text

A fault has a cause and a place.  The readers work on the characters that are
left, so a fault records how many bytes were left unread when it was noticed;
the place in the whole text follows from its length.

Most faults are noticed by looking at the next byte without taking it, and their
place then counts that byte as read: `Fault.ahead`.  The others are placed
behind the last byte taken: `Fault.behind`.
-/

namespace TreeFormat.Json

open Text (byteLength)

/-- Why a text is not JSON, or not JSON within the limits of the reader. -/
inductive Cause where
  | endInList | endInObject | endInString | endInValue
  | expectedColon | expectedListCommaOrEnd | expectedObjectCommaOrEnd | expectedWord
  | expectedValue | invalidEscape | invalidNumber | numberOutOfRange | controlCharacter
  | keyNotString | loneSurrogate | trailingComma | trailingText | unfinishedSurrogate | tooDeep
  deriving DecidableEq, Repr

namespace Cause

/-- The words for a cause. -/
def message : Cause → String
  | endInList => "EOF while parsing a list"
  | endInObject => "EOF while parsing an object"
  | endInString => "EOF while parsing a string"
  | endInValue => "EOF while parsing a value"
  | expectedColon => "expected `:`"
  | expectedListCommaOrEnd => "expected `,` or `]`"
  | expectedObjectCommaOrEnd => "expected `,` or `\x7d`"
  | expectedWord => "expected ident"
  | expectedValue => "expected value"
  | invalidEscape => "invalid escape"
  | invalidNumber => "invalid number"
  | numberOutOfRange => "number out of range"
  | controlCharacter => "control character (\\u0000-\\u001F) found while parsing a string"
  | keyNotString => "key must be a string"
  | loneSurrogate => "lone leading surrogate in hex escape"
  | trailingComma => "trailing comma"
  | trailingText => "trailing characters"
  | unfinishedSurrogate => "unexpected end of hex escape"
  | tooDeep => "recursion limit exceeded"

/-- Whether the text ended too early. -/
def isEnd : Cause → Bool
  | endInList | endInObject | endInString | endInValue => true
  | _ => false

end Cause

/-- A cause, and the number of bytes of the text that come after its place. -/
structure Fault where
  cause : Cause
  unread : Nat
  deriving DecidableEq, Repr

namespace Fault

/-- A fault noticed after everything before `rest` was taken. -/
def behind (cause : Cause) (rest : List Char) : Fault :=
  ⟨cause, byteLength rest⟩

/-- A fault noticed at the next byte of `rest`, or at the end of the text. -/
def ahead (cause : Cause) (rest : List Char) : Fault :=
  ⟨cause, byteLength rest - 1⟩

end Fault

/-- What a reader returns: a value and the text left, or a fault. -/
abbrev Reading (α : Type) := Except Fault (α × List Char)

/-- The blanks between the parts of a JSON text. -/
def isBlank (c : Char) : Bool :=
  c == ' ' || c == '\n' || c == '\t' || c == '\r'

/-- The text from the first character that is not blank. -/
def skipBlanks (text : List Char) : List Char :=
  text.dropWhile isBlank

end TreeFormat.Json
