import TreeFormat.Json.Fault

/-!
# Numerals

A JSON numeral is a sign, digits, perhaps a fraction and perhaps an exponent.
`Numeral.read` takes one off a text, and `Numeral.number` gives its value as the
reader understands it: an integer where it fits into 64 bits, and a double
otherwise.

A double is made of a 64-bit significand and a power of ten.  Digits that no
longer fit into the significand are dropped; those before the point still count
for the power.
-/

namespace TreeFormat.Json

open Text (byteLength)

/-- The power of ten written at the end of a numeral. -/
structure Exponent where
  negative : Bool
  digits : List Char
  deriving DecidableEq, Repr

/-- A numeral as it is written. -/
structure Numeral where
  negative : Bool
  whole : List Char
  fraction : Option (List Char)
  exponent : Option Exponent
  deriving DecidableEq, Repr

/-- The value of a numeral. -/
inductive Number where
  | integer (value : Int)
  | double (value : Float)

namespace Numeral

/-! ## Reading -/

/-- The digits at the start of a text, and the rest. -/
def takeDigits (text : List Char) : List Char × List Char :=
  (text.takeWhile Char.isDigit, text.dropWhile Char.isDigit)

/-- Takes the digits before the point.  There is at least one, and a leading
zero stands alone.  A text that ends before the first digit has the fault
`atEnd`. -/
def readWhole (atEnd : Cause) (text : List Char) : Reading (List Char) :=
  match text with
  | [] => .error (.behind atEnd [])
  | '0' :: rest =>
    match rest with
    | c :: _ => if c.isDigit then .error (.ahead .invalidNumber rest) else .ok (['0'], rest)
    | [] => .ok (['0'], [])
  | c :: _ =>
    if c.isDigit then .ok (takeDigits text) else .error (.ahead .invalidNumber text)

/-- Takes a point and the digits after it, if there is a point. -/
def readFraction (atEnd : Cause) (text : List Char) : Reading (Option (List Char)) :=
  match text with
  | '.' :: rest =>
    match takeDigits rest with
    | ([], []) => .error (.ahead atEnd [])
    | ([], after) => .error (.ahead .invalidNumber after)
    | (digits, after) => .ok (some digits, after)
  | _ => .ok (none, text)

/-- Takes the sign of an exponent. -/
def readSign : List Char → Bool × List Char
  | '+' :: rest => (false, rest)
  | '-' :: rest => (true, rest)
  | text => (false, text)

/-- Takes the digits of an exponent. -/
def readExponentDigits (atEnd : Cause) (negative : Bool) (text : List Char) :
    Reading (Option Exponent) :=
  match takeDigits text with
  | ([], []) => .error (.behind atEnd [])
  | ([], after) => .error (.ahead .invalidNumber after)
  | (digits, after) => .ok (some ⟨negative, digits⟩, after)

/-- Takes an exponent, if there is one. -/
def readExponent (atEnd : Cause) (text : List Char) : Reading (Option Exponent) :=
  match text with
  | 'e' :: rest | 'E' :: rest =>
    let (negative, digits) := readSign rest
    readExponentDigits atEnd negative digits
  | _ => .ok (none, text)

/-- Takes a numeral without its sign. -/
def readUnsigned (atEnd : Cause) (negative : Bool) (text : List Char) :
    Except Fault (Numeral × List Char) := do
  let (whole, text) ← readWhole atEnd text
  let (fraction, text) ← readFraction atEnd text
  let (exponent, text) ← readExponent atEnd text
  return (⟨negative, whole, fraction, exponent⟩, text)

/-- Takes a numeral off a text.  Where the text ends before a digit that has to
follow, the fault is `atEnd`. -/
def scan (atEnd : Cause) : List Char → Reading Numeral
  | '-' :: rest => readUnsigned atEnd true rest
  | text => readUnsigned atEnd false text

/-! ## Writing -/

/-- The text of a numeral. -/
def render (numeral : Numeral) : List Char :=
  let exponent : List Char :=
    match numeral.exponent with
    | some ⟨negative, digits⟩ => 'e' :: (if negative then '-' :: digits else digits)
    | none => []
  let fraction : List Char :=
    match numeral.fraction with
    | some digits => '.' :: digits
    | none => []
  (if numeral.negative then ['-'] else []) ++ numeral.whole ++ fraction ++ exponent

/-! ## Value -/

/-- Extends a number by decimal digits as long as it stays below a bound, and
returns the digits left over. -/
def extend (bound : Nat) : Nat → List Char → Nat × List Char
  | value, [] => (value, [])
  | value, c :: rest =>
    let next := value * 10 + (c.toNat - '0'.toNat)
    if next < bound then extend bound next rest else (value, c :: rest)

/-- The significand of a numeral and the power of ten that it is to be
multiplied with, the written exponent aside. -/
def significand (numeral : Numeral) : Nat × Int :=
  let (value, dropped) := extend (Nat.pow 2 64) 0 numeral.whole
  match numeral.fraction with
  | none => (value, dropped.length)
  | some digits =>
    let (value, left) := extend (Nat.pow 2 64) value digits
    (value, (dropped.length : Int) - ((digits.length : Int) - left.length))

/-- A double divided by a power of ten, in steps that a double can hold. -/
def divide (value : Float) (power : Nat) : Float :=
  if power ≤ 308 then value / Float.ofScientific 1 false power
  else if value == 0 then value
  else divide (value / Float.ofScientific 1 false 308) (power - 308)
termination_by power

/-- A significand times a power of ten, or `none` if it is too large for a
double. -/
def scale? (significand : Nat) (power : Int) : Option Float :=
  let value := significand.toUInt64.toFloat
  if power < 0 then some (divide value power.natAbs)
  else if 308 < power then if significand = 0 then some value else none
  else
    let scaled := value * Float.ofScientific 1 false power.toNat
    if scaled.isInf then none else some scaled

/-- Changes the sign of a double if asked to. -/
def signed (negative : Bool) (value : Float) : Float :=
  if negative then -value else value

/-- The value of a numeral.  Where it is out of range the error is the number of
digits of the exponent that come after the one where this was noticed. -/
def number (numeral : Numeral) : Except Nat Number :=
  let (value, power) := numeral.significand
  match numeral.exponent with
  | some exponent =>
    let (size, left) := extend (Nat.pow 2 31) 0 exponent.digits
    if left.isEmpty then
      match scale? value (if exponent.negative then power - size else power + size) with
      | some scaled => .ok (.double (signed numeral.negative scaled))
      | none => .error 0
    else if value ≠ 0 ∧ exponent.negative = false then .error (left.length - 1)
    else .ok (.double (signed numeral.negative 0))
  | none =>
    if numeral.fraction.isSome ∨ power ≠ 0 then
      match scale? value power with
      | some scaled => .ok (.double (signed numeral.negative scaled))
      | none => .error 0
    else if numeral.negative = false then .ok (.integer value)
    else if value = 0 ∨ Nat.pow 2 63 < value then .ok (.double (-value.toUInt64.toFloat))
    else .ok (.integer (-value))

/-- Takes a numeral whose value is in range off a text. -/
def read (text : List Char) : Except Fault (Numeral × List Char) := do
  let (numeral, rest) ← scan .endInValue text
  match numeral.number with
  | .ok _ => return (numeral, rest)
  | .error left => throw ⟨.numberOutOfRange, byteLength rest + left⟩

end Numeral

end TreeFormat.Json
