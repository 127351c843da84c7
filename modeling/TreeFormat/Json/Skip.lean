import TreeFormat.Json.Value

/-!
# Skipping values

A value that is not wanted is dropped without decoding it.  Its brackets have to
match and its strings and numerals have to be well formed, but nothing limits
how deep it nests or how large its numbers are.  The arrays and objects that are
open are kept in a list, the innermost first.
-/

namespace TreeFormat.Json

/-- What is open around a skipped value. -/
inductive Enclosing where
  | list | object
  deriving DecidableEq, Repr

namespace Enclosing

/-- The character that closes it. -/
def closing : Enclosing → Char
  | list => ']'
  | object => '\x7d'

/-- The fault of a text that ends inside. -/
def atEnd : Enclosing → Cause
  | list => .endInList
  | object => .endInObject

/-- The fault of a text that goes on with neither a comma nor the closing
character. -/
def notClosed : Enclosing → Cause
  | list => .expectedListCommaOrEnd
  | object => .expectedObjectCommaOrEnd

end Enclosing

/-- Drops a key and its colon. -/
def skipKey (text : List Char) : Except Fault (List Char) :=
  match skipBlanks text with
  | [] => .error (.ahead .endInObject [])
  | c :: rest =>
    if c = '"' then do
      let text ← Quoted.skip rest
      expectColon text
    else .error (.ahead .keyNotString (c :: rest))

/-- Drops a value that has nothing inside, or returns what an opening bracket or
brace opens. -/
def skipStart (text : List Char) : Except Fault (Option Enclosing × List Char) :=
  match skipBlanks text with
  | [] => .error (.ahead .endInValue [])
  | c :: rest =>
    if c = 'n' then (expectWord ['u', 'l', 'l'] rest).map (none, ·)
    else if c = 't' then (expectWord ['r', 'u', 'e'] rest).map (none, ·)
    else if c = 'f' then (expectWord ['a', 'l', 's', 'e'] rest).map (none, ·)
    else if c = '"' then (Quoted.skip rest).map (none, ·)
    else if c = '[' then .ok (some .list, rest)
    else if c = '\x7b' then .ok (some .object, rest)
    else if c = '-' ∨ c.isDigit then
      (Numeral.scan .invalidNumber (c :: rest)).map fun (_, rest) => (none, rest)
    else .error (.ahead .expectedValue (c :: rest))

/-- Where a skipper stands. -/
inductive SkipPoint where
  /-- In front of a value. -/
  | value
  /-- Behind an opening bracket or brace. -/
  | opened
  /-- Behind a value. -/
  | done
  deriving DecidableEq, Repr

/-- Drops text until nothing is open any more. -/
def skipFrom : Nat → SkipPoint → List Enclosing → List Char → Except Fault (List Char)
  | 0, _, _, text => .error (.ahead .endInValue text)
  | fuel + 1, .value, enclosing, text => do
    match ← skipStart text with
    | (none, rest) => skipFrom fuel .done enclosing rest
    | (some opened, rest) => skipFrom fuel .opened (opened :: enclosing) rest
  | _ + 1, _, [], text => .ok text
  | fuel + 1, point, inner :: outer, text =>
    match skipBlanks text with
    | [] => .error (.ahead inner.atEnd [])
    | c :: rest => do
      if c = inner.closing then skipFrom fuel .done outer rest
      else if point = .opened then
        let text ← if inner = .object then skipKey (c :: rest) else pure (c :: rest)
        skipFrom fuel .value (inner :: outer) text
      else if c = ',' then
        let text ← if inner = .object then skipKey rest else pure rest
        skipFrom fuel .value (inner :: outer) text
      else throw (.ahead inner.notClosed (c :: rest))

/-- Drops a value off a text. -/
def skipValue (text : List Char) : Except Fault (List Char) :=
  skipFrom (2 * text.length + 2) .value [] text

end TreeFormat.Json
