import TreeFormat.Json.Numeral
import TreeFormat.Json.Quoted

/-!
# JSON values

A value keeps the members of an object in the order in which they were written,
also when a key comes twice.  `Value.render` writes a value without any blanks,
and `Value.read` takes one off a text.

Reading has a limit: the arrays and objects that are open at the same time may
be at most as many as the limit allows, less one.
-/

namespace TreeFormat.Json

/-- A JSON value. -/
inductive Value where
  | null
  | bool (value : Bool)
  | number (numeral : Numeral)
  | string (text : String)
  | array (items : List Value)
  | object (members : List (String × Value))

instance : Inhabited Value := ⟨.null⟩

namespace Value

/-! ## Writing -/

mutual

/-- The text of a value. -/
def render : Value → List Char
  | .null => ['n', 'u', 'l', 'l']
  | .bool true => ['t', 'r', 'u', 'e']
  | .bool false => ['f', 'a', 'l', 's', 'e']
  | .number numeral => numeral.render
  | .string text => Quoted.render text
  | .array items => '[' :: renderItems items
  | .object members => '\x7b' :: renderMembers members

/-- The text of the elements of an array, up to its closing bracket. -/
def renderItems : List Value → List Char
  | [] => [']']
  | item :: items => item.render ++ renderMoreItems items

/-- The text of the elements after the first one. -/
def renderMoreItems : List Value → List Char
  | [] => [']']
  | item :: items => ',' :: (item.render ++ renderMoreItems items)

/-- The text of the members of an object, up to its closing brace. -/
def renderMembers : List (String × Value) → List Char
  | [] => ['\x7d']
  | (key, value) :: members =>
    Quoted.render key ++ ':' :: (value.render ++ renderMoreMembers members)

/-- The text of the members after the first one. -/
def renderMoreMembers : List (String × Value) → List Char
  | [] => ['\x7d']
  | (key, value) :: members =>
    ',' :: (Quoted.render key ++ ':' :: (value.render ++ renderMoreMembers members))

end

mutual

/-- The number of arrays and objects that are open at once inside a value,
itself included. -/
def nesting : Value → Nat
  | .array items => nestingAll items + 1
  | .object members => nestingMembers members + 1
  | _ => 0

/-- The nesting of the most deeply nested of several values. -/
def nestingAll : List Value → Nat
  | [] => 0
  | item :: items => max item.nesting (nestingAll items)

/-- The nesting of the most deeply nested member. -/
def nestingMembers : List (String × Value) → Nat
  | [] => 0
  | (_, value) :: members => max value.nesting (nestingMembers members)

end

end Value

/-! ## Parts of a text -/

/-- Takes the rest of a word such as `null`. -/
def expectWord : List Char → List Char → Except Fault (List Char)
  | [], text => .ok text
  | _ :: _, [] => .error (.behind .endInValue [])
  | letter :: word, c :: rest =>
    if c = letter then expectWord word rest else .error (.ahead .expectedWord (c :: rest))

/-- Takes the colon between a key and its value. -/
def expectColon (text : List Char) : Except Fault (List Char) :=
  match skipBlanks text with
  | [] => .error (.ahead .endInObject [])
  | c :: rest => if c = ':' then .ok rest else .error (.ahead .expectedColon (c :: rest))

/-- Looks for the next element of an array: the text in front of it, or nothing
if the closing bracket comes next. -/
def nextElement (first : Bool) (text : List Char) : Except Fault (Option (List Char)) :=
  match skipBlanks text with
  | [] => .error (.ahead .endInList [])
  | c :: rest =>
    if c = ']' then .ok none
    else if first then .ok (some (c :: rest))
    else if c = ',' then
      match skipBlanks rest with
      | [] => .error (.ahead .endInValue [])
      | d :: after =>
        if d = ']' then .error (.ahead .trailingComma (d :: after)) else .ok (some (d :: after))
    else .error (.ahead .expectedListCommaOrEnd (c :: rest))

/-- Takes the next key of an object, or nothing if the closing brace comes next. -/
def nextKey (first : Bool) (text : List Char) : Except Fault (Option (String × List Char)) :=
  match skipBlanks text with
  | [] => .error (.ahead .endInObject [])
  | c :: rest =>
    if c = '\x7d' then .ok none
    else if first then
      if c = '"' then (Quoted.read rest).map some else .error (.ahead .keyNotString (c :: rest))
    else if c = ',' then
      match skipBlanks rest with
      | [] => .error (.ahead .endInValue [])
      | d :: after =>
        if d = '"' then (Quoted.read after).map some
        else if d = '\x7d' then .error (.ahead .trailingComma (d :: after))
        else .error (.ahead .keyNotString (d :: after))
    else .error (.ahead .expectedObjectCommaOrEnd (c :: rest))

/-- The text behind the bracket or brace that comes next. -/
def dropClosing (text : List Char) : List Char :=
  (skipBlanks text).drop 1

/-! ## Reading -/

namespace Value

mutual

/-- Takes a value off a text, with room for a number of arrays and objects to be
open at once. -/
def readWithin : Nat → Nat → List Char → Except Fault (Value × List Char)
  | 0, _, text => .error (.ahead .endInValue text)
  | fuel + 1, room, text =>
    match skipBlanks text with
    | [] => .error (.ahead .endInValue [])
    | c :: rest =>
      if c = 'n' then (expectWord ['u', 'l', 'l'] rest).map (.null, ·)
      else if c = 't' then (expectWord ['r', 'u', 'e'] rest).map (.bool true, ·)
      else if c = 'f' then (expectWord ['a', 'l', 's', 'e'] rest).map (.bool false, ·)
      else if c = '"' then
        (Quoted.read rest).map fun (text, rest) => (.string text, rest)
      else if c = '[' then
        if room ≤ 1 then .error (.ahead .tooDeep (c :: rest))
        else
          (readElements fuel (room - 1) true rest).map fun (items, rest) => (.array items, rest)
      else if c = '\x7b' then
        if room ≤ 1 then .error (.ahead .tooDeep (c :: rest))
        else
          (readMembers fuel (room - 1) true rest).map fun (members, rest) =>
            (.object members, rest)
      else if c = '-' ∨ c.isDigit then
        (Numeral.read (c :: rest)).map fun (numeral, rest) => (.number numeral, rest)
      else .error (.ahead .expectedValue (c :: rest))

/-- Takes the elements of an array and its closing bracket. -/
def readElements : Nat → Nat → Bool → List Char → Except Fault (List Value × List Char)
  | 0, _, _, text => .error (.ahead .endInList text)
  | fuel + 1, room, first, text => do
    match ← nextElement first text with
    | none => return ([], dropClosing text)
    | some text =>
      let (item, text) ← readWithin fuel room text
      let (items, text) ← readElements fuel room false text
      return (item :: items, text)

/-- Takes the members of an object and its closing brace. -/
def readMembers : Nat → Nat → Bool → List Char → Except Fault (List (String × Value) × List Char)
  | 0, _, _, text => .error (.ahead .endInObject text)
  | fuel + 1, room, first, text => do
    match ← nextKey first text with
    | none => return ([], dropClosing text)
    | some (key, text) =>
      let (value, text) ← readWithin fuel room (← expectColon text)
      let (members, text) ← readMembers fuel room false text
      return ((key, value) :: members, text)

end

/-- Takes a value off a text, with room for a number of arrays and objects to be
open at once. -/
def read (room : Nat) (text : List Char) : Except Fault (Value × List Char) :=
  readWithin (2 * text.length + 2) room text

end Value

end TreeFormat.Json
