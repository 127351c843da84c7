/-!
# Shortest decimal digits of a double

A finite positive double is a mantissa times a power of two, and every real
number closer to it than to its neighbours reads back as it.  `shortest` finds
the fewest decimal digits that name such a number, and of those the ones nearest
to the double.  All arithmetic is exact.

`showDouble` writes the digits: with a point in its place for the powers of ten
from -5 to 15, and in scientific notation with a signed exponent otherwise.
-/

namespace TreeFormat.Decimal

/-- A positive rational number; the denominator is meant to be positive. -/
structure Ratio where
  num : Nat
  den : Nat

/-- A number times a power of two. -/
def Ratio.ofBinary (mantissa : Nat) (power : Int) : Ratio :=
  if power < 0 then ⟨mantissa, Nat.pow 2 power.natAbs⟩ else ⟨mantissa * Nat.pow 2 power.toNat, 1⟩

/-- A number times a power of ten. -/
def Ratio.ofDecimal (digits : Nat) (power : Int) : Ratio :=
  if power < 0 then ⟨digits, Nat.pow 10 power.natAbs⟩ else ⟨digits * Nat.pow 10 power.toNat, 1⟩

/-- Whether a number is less than another. -/
def Ratio.lt (a b : Ratio) : Bool :=
  a.num * b.den < b.num * a.den

/-- Whether a number is at most another. -/
def Ratio.le (a b : Ratio) : Bool :=
  a.num * b.den ≤ b.num * a.den

/-- A positive double, and the numbers half way to its neighbours. -/
structure Rounding where
  value : Ratio
  low : Ratio
  high : Ratio
  /-- Whether the half-way numbers themselves read back as the double. -/
  closed : Bool

/-- The double with a 52-bit fraction field and an 11-bit exponent field. -/
def Rounding.ofFields (fraction field : Nat) : Rounding :=
  let mantissa := if field = 0 then fraction else fraction + Nat.pow 2 52
  let power : Int := (max field 1 : Nat) - 1075
  -- The neighbour below a power of two is only half as far away.
  let narrow := fraction = 0 ∧ 1 < field
  { value := .ofBinary mantissa power
    low := if narrow then .ofBinary (4 * mantissa - 1) (power - 2)
      else .ofBinary (2 * mantissa - 1) (power - 1)
    high := .ofBinary (2 * mantissa + 1) (power - 1)
    closed := mantissa % 2 = 0 }

/-- Whether a number reads back as the double. -/
def Rounding.contains (rounding : Rounding) (x : Ratio) : Bool :=
  if rounding.closed then rounding.low.le x && x.le rounding.high
  else rounding.low.lt x && x.lt rounding.high

/-- The largest power of ten, from `power` downwards, that is at most the
number. -/
def leadingPower (x : Ratio) : Nat → Int → Int
  | 0, power => power
  | fuel + 1, power =>
    if (Ratio.ofDecimal 1 power).le x then power else leadingPower x fuel (power - 1)

/-- The number of times that a power of ten fits into a number. -/
def wholeTimes (x : Ratio) (power : Int) : Nat :=
  if power < 0 then x.num * Nat.pow 10 power.natAbs / x.den
  else x.num / (x.den * Nat.pow 10 power.toNat)

/-- Whether the first of two neighbouring multiples of a power of ten is at
least as near to a number that lies between them as the second.  A tie goes to
the even multiple. -/
def prefersLower (x : Ratio) (digits : Nat) (power : Int) : Bool :=
  let middle := Ratio.ofDecimal (2 * digits + 1) power
  let twice : Ratio := ⟨2 * x.num, x.den⟩
  if twice.lt middle then true else if middle.lt twice then false else digits % 2 == 0

/-- The multiple of a power of ten that reads back as a double and is nearest to
it, if there is one. -/
def candidate? (rounding : Rounding) (power : Int) : Option Nat :=
  let lower := wholeTimes rounding.value power
  let fits (digits : Nat) : Bool := rounding.contains (.ofDecimal digits power)
  match fits lower && lower != 0, fits (lower + 1) with
  | true, true =>
    some (if prefersLower rounding.value lower power then lower else lower + 1)
  | true, false => some lower
  | false, true => some (lower + 1)
  | false, false => none

/-- Tries one more digit after the other, from the given power of ten downwards. -/
def shortestFrom (rounding : Rounding) : Nat → Int → Nat × Int
  | 0, power => (wholeTimes rounding.value power, power)
  | fuel + 1, power =>
    match candidate? rounding power with
    | some digits => (digits, power)
    | none => shortestFrom rounding fuel (power - 1)

/-- The fewest digits that read back as a double, and the power of ten that they
are multiplied with. -/
def shortest (rounding : Rounding) : Nat × Int :=
  shortestFrom rounding 17 (leadingPower rounding.value 640 309)

/-- Drops the zeros at the end of a number. -/
def stripZeros : Nat → Nat × Int → Nat × Int
  | 0, decimal => decimal
  | fuel + 1, (digits, power) =>
    if digits ≠ 0 ∧ digits % 10 = 0 then stripZeros fuel (digits / 10, power + 1)
    else (digits, power)

/-- The text of a number of decimal digits times a power of ten. -/
def showDecimal (digits : Nat) (power : Int) : String :=
  let text := Nat.toDigits 10 digits
  let lead : Int := power + text.length - 1
  let zeros (count : Nat) : List Char := List.replicate count '0'
  if -5 ≤ lead ∧ lead ≤ 15 then
    if 0 ≤ power then String.ofList (text ++ zeros power.toNat ++ ['.', '0'])
    else if 0 ≤ lead then
      String.ofList (text.take (lead.toNat + 1) ++ '.' :: text.drop (lead.toNat + 1))
    else String.ofList ('0' :: '.' :: (zeros (lead.natAbs - 1) ++ text))
  else
    let fraction : List Char := if text.length = 1 then [] else '.' :: text.drop 1
    let sign := if lead < 0 then '-' else '+'
    String.ofList (text.take 1 ++ fraction ++ 'e' :: sign :: Nat.toDigits 10 lead.natAbs)

/-- The text of a finite double. -/
def showDouble (x : Float) : String :=
  let bits := x.toBits.toNat
  let fraction := bits % Nat.pow 2 52
  let field := bits / Nat.pow 2 52 % Nat.pow 2 11
  let sign := if bits / Nat.pow 2 63 = 1 then "-" else ""
  if fraction = 0 ∧ field = 0 then sign ++ "0.0"
  else
    let (digits, power) := stripZeros 17 (shortest (.ofFields fraction field))
    sign ++ showDecimal digits power

end TreeFormat.Decimal
