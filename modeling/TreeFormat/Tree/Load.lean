import TreeFormat.Decimal.Shortest
import TreeFormat.Json.Skip
import TreeFormat.Source.Location
import TreeFormat.Text.Quoted
import TreeFormat.Tree.Wire

/-!
# Loading a tree

A tree is loaded from the text of its wire form.  The root is read member by
member: its type and body are decoded, and members with other names are skipped.
The root may also be an array of a type and a body.

A text is rejected because it is not JSON or because the root is not a node.  In
the second case the place of the fault is where the reader stands after it has
also tried to close the root.
-/

namespace TreeFormat

open Json (Value Fault skipBlanks)
open Text (byteLength)

/-- A value found where another was expected. -/
inductive Found where
  | null
  | bool (value : Bool)
  | number (value : Json.Number)
  | string (text : String)
  | list
  | object

/-- The words for a value that was found. -/
def Found.words : Found → String
  | null => "null"
  | bool value => "boolean `" ++ (if value then "true" else "false") ++ "`"
  | number (.integer value) => "integer `" ++ toString value ++ "`"
  | number (.double value) => "floating point `" ++ Decimal.showDouble value ++ "`"
  | string text => "string " ++ Text.quoted text
  | list => "sequence"
  | object => "map"

/-- Why JSON is not a node. -/
inductive Misfit where
  /-- The type is not a string. -/
  | typeNotString (found : Found)
  /-- The root is neither an object nor an array. -/
  | notNode (found : Found)
  | duplicateField (name : String)
  | missingField (name : String)
  /-- The root is an array with too few elements. -/
  | tooShort (length : Nat)
  /-- The body is neither a text nor an array of slots. -/
  | notBody

/-- The words for a misfit. -/
def Misfit.message : Misfit → String
  | typeNotString found => "invalid type: " ++ found.words ++ ", expected a string"
  | notNode found => "invalid type: " ++ found.words ++ ", expected struct Node"
  | duplicateField name => "duplicate field `" ++ name ++ "`"
  | missingField name => "missing field `" ++ name ++ "`"
  | tooShort length =>
    "invalid length " ++ toString length ++ ", expected struct Node with 2 elements"
  | notBody => "data did not match any variant of untagged enum Body"

/-- Why a text is rejected. -/
inductive Objection where
  | text (cause : Json.Cause)
  | misfit (misfit : Misfit)

/-- The words for an objection. -/
def Objection.message : Objection → String
  | .text cause => cause.message
  | .misfit reason => reason.message

/-- What is wrong with a text in general. -/
inductive Category where
  /-- It is not JSON. -/
  | malformed
  /-- It ends too early. -/
  | incomplete
  /-- It is JSON, but not a node. -/
  | unfit
  deriving DecidableEq, Repr

/-- The label at the place of a fault. -/
def Category.label : Category → String
  | malformed => "malformed JSON"
  | incomplete => "unexpected end of input"
  | unfit => "not a syntax tree node"

/-- What an objection says about the text. -/
def Objection.category : Objection → Category
  | .text cause => if cause.isEnd then .incomplete else .malformed
  | .misfit _ => .unfit

/-- An objection, and the number of bytes of the text that come after its place. -/
structure Refusal where
  objection : Objection
  unread : Nat

/-- The refusal for a fault in the text. -/
def Refusal.ofFault (fault : Fault) : Refusal :=
  ⟨.text fault.cause, fault.unread⟩

/-! ## Reading the root -/

namespace RootReader

/-- Why the inside of the root could not be read.  The place of a misfit depends
on the end of the root and is left open. -/
inductive Halt where
  | refused (refusal : Refusal)
  | unfit (misfit : Misfit) (text : List Char)

/-- A halt for a fault in the text. -/
def Halt.ofFault (fault : Fault) : Halt :=
  .refused (.ofFault fault)

/-- Passes on the result of a reader that knows nothing of nodes. -/
def lift {α : Type} (reading : Except Fault α) : Except Halt α :=
  reading.mapError Halt.ofFault

/-- The refusal of a value that stands where another was expected. -/
def unexpected (misfit : Found → Misfit) (text : List Char) : Refusal :=
  let found (reading : Except Fault (Found × List Char)) : Refusal :=
    match reading with
    | .ok (value, rest) => ⟨.misfit (misfit value), byteLength rest⟩
    | .error fault => .ofFault fault
  match text with
  | [] => .ofFault (.ahead .expectedValue [])
  | c :: rest =>
    if c = 'n' then found ((Json.expectWord ['u', 'l', 'l'] rest).map (.null, ·))
    else if c = 't' then found ((Json.expectWord ['r', 'u', 'e'] rest).map (.bool true, ·))
    else if c = 'f' then found ((Json.expectWord ['a', 'l', 's', 'e'] rest).map (.bool false, ·))
    else if c = '"' then
      found ((Json.Quoted.read rest).map fun (text, rest) => (.string text, rest))
    else if c = '[' then found (.ok (.list, text))
    else if c = '\x7b' then found (.ok (.object, text))
    else if c = '-' ∨ c.isDigit then
      found do
        let (numeral, rest) ← Json.Numeral.read text
        match numeral.number with
        | .ok number => return (.number number, rest)
        | .error left => throw ⟨.numberOutOfRange, byteLength rest + left⟩
    else .ofFault (.ahead .expectedValue text)

/-- Takes the type of the root. -/
def readType (text : List Char) : Except Halt (Kind × List Char) :=
  match skipBlanks text with
  | [] => .error (.ofFault (.ahead .endInValue []))
  | c :: rest =>
    if c = '"' then do
      let (name, rest) ← lift (Json.Quoted.read rest)
      return (Kind.ofName name, rest)
    else .error (.refused (unexpected .typeNotString (c :: rest)))

/-- Takes the body of the root, with room for a number of arrays and objects
inside. -/
def readBody (room : Nat) (text : List Char) : Except Halt (Body × List Char) := do
  let (value, rest) ← lift (Value.read room text)
  match Body.ofValue? value with
  | some body => return (body, rest)
  | none => throw (.unfit .notBody rest)

/-- Takes the members of the root, up to its closing brace, with what was read
before. -/
def readFields (room : Nat) : Nat → Bool → Option Kind → Option Body → List Char →
    Except Halt (Node × List Char)
  | 0, _, _, _, text => .error (.ofFault (.ahead .endInObject text))
  | fuel + 1, first, kind?, body?, text => do
    match ← lift (Json.nextKey first text) with
    | none =>
      match kind?, body? with
      | none, _ => throw (.unfit (.missingField "type") text)
      | some _, none => throw (.unfit (.missingField "body") text)
      | some kind, some body => return (body.toNode kind, text)
    | some (key, text) =>
      if key = "type" then
        if kind?.isSome then throw (.unfit (.duplicateField "type") text)
        let (kind, text) ← readType (← lift (Json.expectColon text))
        readFields room fuel false (some kind) body? text
      else if key = "body" then
        if body?.isSome then throw (.unfit (.duplicateField "body") text)
        let (body, text) ← readBody room (← lift (Json.expectColon text))
        readFields room fuel false kind? (some body) text
      else
        let text ← lift (Json.expectColon text)
        let text ← lift (Json.skipValue text)
        readFields room fuel false kind? body? text

/-- Takes the type and the body of a root that is an array. -/
def readPair (room : Nat) (text : List Char) : Except Halt (Node × List Char) := do
  match ← lift (Json.nextElement true text) with
  | none => throw (.unfit (.tooShort 0) text)
  | some text =>
    let (kind, text) ← readType text
    match ← lift (Json.nextElement false text) with
    | none => throw (.unfit (.tooShort 1) text)
    | some text =>
      let (body, text) ← readBody room text
      return (body.toNode kind, text)

/-- Tries to close the root object: the text behind it, and the fault if it is
not closed here. -/
def closeObject (text : List Char) : List Char × Option Fault :=
  match skipBlanks text with
  | [] => ([], some (.ahead .endInObject []))
  | c :: rest =>
    if c = '\x7d' then (rest, none)
    else (c :: rest, some (.ahead (if c = ',' then .trailingComma else .trailingText) (c :: rest)))

/-- Tries to close the root array: the text behind it, and the fault if it is
not closed here. -/
def closeArray (text : List Char) : List Char × Option Fault :=
  match skipBlanks text with
  | [] => ([], some (.ahead .endInList []))
  | c :: rest =>
    if c = ']' then (rest, none)
    else if c = ',' then
      let after := skipBlanks rest
      let cause : Json.Cause := if after.head? = some ']' then .trailingComma else .trailingText
      (after, some (.ahead cause after))
    else (c :: rest, some (.ahead .trailingText (c :: rest)))

/-- Closes the root after its inside was read, or failed to be read.  What went
wrong inside comes first. -/
def close (closing : List Char → List Char × Option Fault)
    (inside : Except Halt (Node × List Char)) : Except Refusal (Node × List Char) :=
  match inside with
  | .ok (node, text) =>
    match closing text with
    | (rest, none) => .ok (node, rest)
    | (_, some fault) => .error (.ofFault fault)
  | .error (.refused refusal) => .error refusal
  | .error (.unfit misfit text) => .error ⟨.misfit misfit, byteLength (closing text).1⟩

/-- The number of arrays and objects that may be open at once, the root
included, plus one. -/
def depthLimit : Nat := 128

/-- Takes the root off a text. -/
def readRoot (text : List Char) : Except Refusal (Node × List Char) :=
  match skipBlanks text with
  | [] => .error (.ofFault (.ahead .endInValue []))
  | c :: rest =>
    if c = '\x7b' then
      close closeObject (readFields (depthLimit - 1) (rest.length + 1) true none none rest)
    else if c = '[' then close closeArray (readPair (depthLimit - 1) rest)
    else .error (unexpected .notNode (c :: rest))

/-- Reads a text that holds a root and nothing else. -/
def readAll (text : List Char) : Except Refusal Node := do
  let (node, rest) ← readRoot text
  match skipBlanks rest with
  | [] => return node
  | c :: rest => throw (.ofFault (.ahead .trailingText (c :: rest)))

end RootReader

/-! ## Loading -/

/-- A rejected tree: the objection, the line and the column that the reader
counted, and the location to be labelled. -/
structure LoadFault where
  objection : Objection
  line : Nat
  column : Nat
  location : Location

namespace LoadFault

/-- The objection with its place in words. -/
def detail (fault : LoadFault) : String :=
  fault.objection.message ++ " at line " ++ toString fault.line ++ " column " ++
    toString fault.column

/-- The message for a rejected tree. -/
def message (fault : LoadFault) : String :=
  "invalid syntax tree: " ++ fault.detail

/-- The words at the place of the fault. -/
def label (fault : LoadFault) : String :=
  fault.objection.category.label

end LoadFault

/-- Loads a tree from the text of its wire form.  The path is only used to label
faults. -/
def loadTree (text path : String) : Except LoadFault Node :=
  match RootReader.readAll text.toList with
  | .ok node => .ok node
  | .error ⟨objection, unread⟩ =>
    let (line, column) := lineColumnAt (byteLength text.toList - unread) 1 0 0 text.toList
    .error ⟨objection, line, column, .ofLineColumn text line column path⟩

end TreeFormat
