import TreeFormat.Json.Fault

/-!
# Quoted strings

A JSON string stands between double quotes.  `Quoted.read` takes the characters
after the opening quote one at a time and keeps track of an escape under way;
`Quoted.skip` does the same for a string whose content is not wanted and checks
less; `Quoted.render` writes a string.

Writing escapes a quote, a backslash and the control characters, and nothing
else.
-/

namespace TreeFormat.Json.Quoted

open Text (byteLength)

/-- The value of a hexadecimal digit. -/
def hexDigit? (c : Char) : Option Nat :=
  if c.isDigit then some (c.toNat - '0'.toNat)
  else if 'a' ≤ c ∧ c ≤ 'f' then some (c.toNat - 'a'.toNat + 10)
  else if 'A' ≤ c ∧ c ≤ 'F' then some (c.toNat - 'A'.toNat + 10)
  else none

/-- The character that a short escape stands for. -/
def shortEscape? : Char → Option Char
  | '"' => some '"'
  | '\\' => some '\\'
  | '/' => some '/'
  | 'b' => some '\x08'
  | 'f' => some '\x0c'
  | 'n' => some '\n'
  | 'r' => some '\r'
  | 't' => some '\t'
  | _ => none

/-- Whether a code unit is the first half of a surrogate pair. -/
def isHighSurrogate (unit : Nat) : Bool :=
  0xD800 ≤ unit && unit ≤ 0xDBFF

/-- Whether a code unit is the second half of a surrogate pair. -/
def isLowSurrogate (unit : Nat) : Bool :=
  0xDC00 ≤ unit && unit ≤ 0xDFFF

/-- The character that a surrogate pair stands for. -/
def ofSurrogates (high low : Nat) : Char :=
  Char.ofNat ((high - 0xD800) * 0x400 + (low - 0xDC00) + 0x10000)

/-- The fault of a hexadecimal escape of which `count` digits were taken and
whose next character is no digit.  Four bytes are taken at once, so a text that
is too short for them ends too early. -/
def hexFault (count : Nat) (text : List Char) : Fault :=
  if byteLength text + count < 4 then ⟨.endInString, 0⟩
  else ⟨.invalidEscape, byteLength text - (4 - count)⟩

/-! ## Reading -/

/-- Where a reader is inside a string. -/
inductive Stage where
  | plain
  /-- Behind a backslash. -/
  | escape
  /-- Inside a hexadecimal escape: the first half of a pair read before, the
  number of digits taken and their value. -/
  | hex (high : Option Nat) (count : Nat) (value : Nat)
  /-- Behind the first half of a pair, before the backslash of the second. -/
  | pairBackslash (high : Nat)
  /-- Behind the backslash of the second half. -/
  | pairLetter (high : Nat)
  deriving DecidableEq, Repr

/-- What four hexadecimal digits mean: a character, or the first half of a pair,
or neither. -/
inductive Unit16 where
  | char (c : Char)
  | high (unit : Nat)
  | lone
  deriving DecidableEq, Repr

/-- What a code unit means behind the first half of a pair, if there was one. -/
def Unit16.ofValue (high : Option Nat) (unit : Nat) : Unit16 :=
  match high with
  | some first => if isLowSurrogate unit then .char (ofSurrogates first unit) else .lone
  | none =>
    if isLowSurrogate unit then .lone
    else if isHighSurrogate unit then .high unit
    else .char (Char.ofNat unit)

/-- Takes the rest of a string, the closing quote included.  `taken` holds the
characters read so far, the last one first. -/
def readFrom : Stage → List Char → List Char → Reading String
  | _, _, [] => .error ⟨.endInString, 0⟩
  | .plain, taken, c :: rest =>
    if c = '"' then .ok (String.ofList taken.reverse, rest)
    else if c = '\\' then readFrom .escape taken rest
    else if c < ' ' then .error (.behind .controlCharacter rest)
    else readFrom .plain (c :: taken) rest
  | .escape, taken, c :: rest =>
    if c = 'u' then readFrom (.hex none 0 0) taken rest
    else
      match shortEscape? c with
      | some meant => readFrom .plain (meant :: taken) rest
      | none => .error (.ahead .invalidEscape (c :: rest))
  | .hex high count value, taken, c :: rest =>
    match hexDigit? c with
    | none => .error (hexFault count (c :: rest))
    | some digit =>
      if count < 3 then readFrom (.hex high (count + 1) (value * 16 + digit)) taken rest
      else
        match Unit16.ofValue high (value * 16 + digit) with
        | .char meant => readFrom .plain (meant :: taken) rest
        | .high unit => readFrom (.pairBackslash unit) taken rest
        | .lone => .error (.behind .loneSurrogate rest)
  | .pairBackslash high, taken, c :: rest =>
    if c = '\\' then readFrom (.pairLetter high) taken rest
    else .error (.ahead .unfinishedSurrogate (c :: rest))
  | .pairLetter high, taken, c :: rest =>
    if c = 'u' then readFrom (.hex (some high) 0 0) taken rest
    else .error (.ahead .unfinishedSurrogate (c :: rest))

/-- Takes a string off a text that starts behind its opening quote. -/
def read (text : List Char) : Reading String :=
  readFrom .plain [] text

/-! ## Skipping -/

/-- Where a reader is inside a string that is skipped. -/
inductive SkipStage where
  | plain
  | escape
  | hex (count : Nat)
  deriving DecidableEq, Repr

/-- Drops the rest of a string, the closing quote included.  Escapes have to be
well formed, but halves of surrogate pairs may stand alone. -/
def skipFrom : SkipStage → List Char → Except Fault (List Char)
  | _, [] => .error ⟨.endInString, 0⟩
  | .plain, c :: rest =>
    if c = '"' then .ok rest
    else if c = '\\' then skipFrom .escape rest
    else if c < ' ' then .error (.behind .controlCharacter (c :: rest))
    else skipFrom .plain rest
  | .escape, c :: rest =>
    if c = 'u' then skipFrom (.hex 0) rest
    else if (shortEscape? c).isSome then skipFrom .plain rest
    else .error (.ahead .invalidEscape (c :: rest))
  | .hex count, c :: rest =>
    if (hexDigit? c).isNone then .error (hexFault count (c :: rest))
    else if count < 3 then skipFrom (.hex (count + 1)) rest
    else skipFrom .plain rest

/-- Drops a string off a text that starts behind its opening quote. -/
def skip (text : List Char) : Except Fault (List Char) :=
  skipFrom .plain text

/-! ## Writing -/

/-- A character inside a string. -/
def renderChar (c : Char) : List Char :=
  if c = '"' then ['\\', '"']
  else if c = '\\' then ['\\', '\\']
  else if c = '\x08' then ['\\', 'b']
  else if c = '\x0c' then ['\\', 'f']
  else if c = '\n' then ['\\', 'n']
  else if c = '\r' then ['\\', 'r']
  else if c = '\t' then ['\\', 't']
  else if c < ' ' then
    ['\\', 'u', '0', '0', Nat.digitChar (c.toNat / 16), Nat.digitChar (c.toNat % 16)]
  else [c]

/-- A string between quotes. -/
def render (text : String) : List Char :=
  '"' :: (text.toList.flatMap renderChar ++ ['"'])

end TreeFormat.Json.Quoted
