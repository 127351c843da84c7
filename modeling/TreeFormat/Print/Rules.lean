import TreeFormat.Layout.Doc
import TreeFormat.Print.Fault

/-!
# Layout rules

One rule for every composite kind of node.  A rule looks at the node under the
cursor and asks for the documents of its children; how a child is printed is the
rule's argument `visit`, so that a rule by itself does not recurse.
-/

namespace TreeFormat

/-- A printing action at a node. -/
abbrev Printer (α : Type) := Walk Log PrintFault α

namespace Print

open Doc (join text concat hardLine literalLine line nil)

/-- The document of the child at a slot path. -/
def child (visit : Printer Doc) (path : List Nat) : Printer Doc :=
  Walk.call path visit

/-- The documents of the children in the list at a slot path. -/
def children (visit : Printer Doc) (path : List Nat) : Printer (List Doc) :=
  Walk.each path visit

/-- The document of the child at a slot path, if something is there. -/
def child? (visit : Printer Doc) (path : List Nat) : Printer (Option Doc) := do
  if (← Walk.node).has path then
    return some (← child visit path)
  else
    return none

/-- The documents of the children in the list at a slot path, if something is
there. -/
def childrenOrNone (visit : Printer Doc) (path : List Nat) : Printer (List Doc) := do
  if (← Walk.node).has path then children visit path else return []

/-- The raw token at a slot path. -/
def token (path : List Nat) : Printer String := do
  Walk.ofLookup ((← Walk.node).tokenAt path)

/-- A leaf prints its text. -/
def literal : Printer Doc := do
  match ← Walk.node with
  | .leaf _ content => return text content
  | .branch kind _ => Walk.fail (.shape kind [] .literal)

/-- All children one after the other. -/
def body (visit : Printer Doc) : Printer Doc := do
  return concat (← children visit [])

/-! ## Expressions -/

/-- `alias` and the two names. -/
def aliasPair (visit : Printer Doc) : Printer Doc := do
  return text "alias " ++ join (text " ") (← children visit [])

/-- The arguments with commas, and the block argument. -/
def argsAddBlock (visit : Printer Doc) : Printer Doc := do
  let arguments := join (text ", ") (← children visit [0])
  match ← child? visit [1] with
  | some block => return .group (arguments ++ block)
  | none => return .group arguments

/-- The two sides of an assignment. -/
def assign (visit : Printer Doc) : Printer Doc := do
  return join (text " = ") (← children visit [])

/-- The operands with the operator between them. -/
def binary (visit : Printer Doc) : Printer Doc := do
  let operator ← token [1]
  let left ← child visit [0]
  let right ← child visit [2]
  return join (concat [text " ", text operator, text " "]) [left, right]

/-- The receiver and the method with the connector between them. -/
def call (visit : Printer Doc) : Printer Doc := do
  let connector ← token [1]
  let receiver ← child visit [0]
  let method ← child visit [2]
  return join (text connector) [receiver, method]

/-- A command and its arguments. -/
def command (visit : Printer Doc) : Printer Doc := do
  return join (text " ") (← children visit [])

/-- The documents of slots counted from an index: children and raw tokens in
order, lists flattened. -/
def slotsFrom (visit : Printer Doc) : Nat → List Slot → Printer (List Doc)
  | _, [] => return []
  | index, slot :: rest => do
    let first ←
      match slot with
      | .node _ => do pure [← child visit [index]]
      | .list _ => children visit [index]
      | .token content => pure [text content]
      | .absent => pure []
    return first ++ (← slotsFrom visit (index + 1) rest)

/-- Every slot in order between parentheses. -/
def paren (visit : Printer Doc) : Printer Doc := do
  let inner ← slotsFrom visit 0 (← Walk.node).slots
  return concat (text "(" :: (inner ++ [text ")"]))

/-! ## Strings and symbols -/

/-- Whether a slot holds an interpolation. -/
def isInterpolation (slot : Slot) : Bool :=
  match slot with
  | .node child => child.kind == .parser .stringEmbexpr
  | _ => false

/-- The parts of a string between quotes: double ones only if the string
interpolates. -/
def stringContent (visit : Printer Doc) : Printer Doc := do
  let quote := if (← Walk.node).slots.any isInterpolation then "\"" else "'"
  let parts ← children visit []
  return text quote ++ concat parts ++ text quote

/-- An interpolation. -/
def stringEmbexpr (visit : Printer Doc) : Printer Doc := do
  return text "#\x7b" ++ concat (← children visit [0]) ++ text "\x7d"

/-- A symbol. -/
def symbol (visit : Printer Doc) : Printer Doc := do
  return text ":" ++ concat (← children visit [])

/-! ## Definitions -/

/-- The first child among the statements of a body. -/
def firstStatement? (node : Node) (slot : Nat) : Option Node :=
  match node.slotAt [slot] with
  | .ok (.node statements) =>
    match statements.slots.head? with
    | some (.list items) => items.findSome? Slot.child?
    | _ => none
  | _ => none

/-- Whether a statement begins on the line of what comes before it: one that
prints nothing, or one that breaks the line itself. -/
def breaksOwnLine (statement : Node) : Bool :=
  statement.kind == .parser .methodDef || statement.kind == .parser .voidStmt

/-- The body of a class or module on the line after the header. -/
def onOwnLine (node : Node) (slot : Nat) (body : Doc) : Doc :=
  match firstStatement? node slot with
  | some statement => if breaksOwnLine statement then body else hardLine ++ body
  | none => body

/-- A class with its name, its superclass if it has one, and its body. -/
def classDef (visit : Printer Doc) : Printer Doc := do
  let name ← child visit [0]
  let superclass ← child? visit [1]
  let header := text "class " ++ name
  let header :=
    match superclass with
    | some parent => header ++ text " < " ++ parent
    | none => header
  let body ← child visit [2]
  let body := onOwnLine (← Walk.node) 2 body
  return concat [
    .group header,
    .indent body,
    .group (hardLine ++ text "end"),
    literalLine]

/-- A module with its name and its body. -/
def moduleDef (visit : Printer Doc) : Printer Doc := do
  let name ← child visit [0]
  let body ← child visit [1]
  let body := onOwnLine (← Walk.node) 1 body
  return concat [
    hardLine ++ text "module " ++ name,
    .indent body,
    hardLine ++ text "end",
    literalLine]

/-- A method with its name, its parameters and its body. -/
def methodDef (visit : Printer Doc) : Printer Doc := do
  let name ← child visit [0]
  let parameters ← child visit [1]
  let body ← child visit [2]
  return concat [
    .group (hardLine ++ text "def " ++ name ++ parameters),
    .indent (hardLine ++ body),
    .group (hardLine ++ text "end")]

/-- Optional parameters with their defaults, counted from an index. -/
def optionalParams (visit : Printer Doc) : Nat → Nat → Printer (List Doc)
  | 0, _ => return []
  | count + 1, index => do
    let name ← child visit [1, index, 0]
    let default ← child visit [1, index, 1]
    return concat [name, text " = ", default] :: (← optionalParams visit count (index + 1))

/-- Keyword parameters, with their defaults where they have one, counted from an
index. -/
def keywordParams (visit : Printer Doc) : Nat → Nat → Printer (List Doc)
  | 0, _ => return []
  | count + 1, index => do
    let label ← child visit [4, index, 0]
    let default? ← child? visit [4, index, 1]
    let entry :=
      match default? with
      | some default => concat [label, text " ", default]
      | none => label
    return entry :: (← keywordParams visit count (index + 1))

/-- A parameter list.  The slots are: required parameters, optional ones, the
rest parameter, required ones after it, keyword parameters, the rest of the
keywords, and the block. -/
def params (visit : Printer Doc) : Printer Doc := do
  let node ← Walk.node
  let required ← childrenOrNone visit [0]
  let optional ← optionalParams visit (node.listLength [1]) 0
  let rest ← child? visit [2]
  let post ← childrenOrNone visit [3]
  let keywords ← keywordParams visit (node.listLength [4]) 0
  let keywordRest ← child? visit [5]
  let block ← child? visit [6]
  return join (text ", ")
    (required ++ optional ++ rest.toList ++ post ++ keywords ++ keywordRest.toList ++ block.toList)

/-- A sigil and the name behind it, if there is one. -/
def sigil (mark : String) (visit : Printer Doc) : Printer Doc := do
  return text mark ++ (← child? visit [0]).getD nil

/-! ## Statements -/

/-- The statements of a program, each on a line of its own. -/
def program (visit : Printer Doc) : Printer Doc := do
  return .root (join hardLine (← children visit [0]))

/-- The statements of a body. -/
def bodyStmt (visit : Printer Doc) : Printer Doc := do
  return join line (← children visit [0])

/-- The rule of a composite kind. -/
def rule (visit : Printer Doc) : ParserEvent → Printer Doc
  | .aliasPair => aliasPair visit
  | .argsAddBlock => argsAddBlock visit
  | .assign => assign visit
  | .binary => binary visit
  | .blockArg => sigil "&" visit
  | .bodyStmt => bodyStmt visit
  | .call => call visit
  | .classDef => classDef visit
  | .command => command visit
  | .constRef => child visit [0]
  | .methodDef => methodDef visit
  | .kwRestParam => sigil "**" visit
  | .moduleDef => moduleDef visit
  | .params => params visit
  | .paren => paren visit
  | .program => program visit
  | .restParam => sigil "*" visit
  | .stringContent => stringContent visit
  | .stringEmbexpr => stringEmbexpr visit
  | .stringLiteral => body visit
  | .symbol => symbol visit
  | .symbolLiteral => body visit
  | .varField => body visit
  | .varRef => child visit [0]
  | .vcall => body visit
  | .voidStmt => return nil

end Print

end TreeFormat
