import TreeFormat.Layout.Render

/-!
# Layout with absolute indentation

A second account of the layout, which works on documents as they are.  Every
command carries the absolute indentation and the root column of its document:
both start at zero, an `indent` adds a level, a `dedent` takes one away and
stops at the left edge, an `align` adds columns, and a `root` makes the
indentation the root column.

Documents without any text or line break take no part in the layout.  A literal
line starts the next line at the root column, and every other line break at the
indentation of the command after it.
-/

namespace TreeFormat

mutual

/-- Whether a document has neither text nor line breaks. -/
def Doc.isTextless : Doc → Bool
  | .nil => true
  | .text content => content.isEmpty
  | .concat parts => Doc.areTextless parts
  | .line | .hardLine | .literalLine => false
  | .group inner | .indent inner | .dedent inner | .align _ inner | .root inner => inner.isTextless

/-- Whether no document of a list has text or line breaks. -/
def Doc.areTextless : List Doc → Bool
  | [] => true
  | doc :: docs => doc.isTextless && Doc.areTextless docs

end

mutual

/-- The number of steps that the layout of a document takes at most. -/
def Doc.weight : Doc → Nat
  | .concat parts => Doc.weights parts + 1
  | .group inner | .indent inner | .dedent inner | .align _ inner | .root inner => inner.weight + 1
  | _ => 1

/-- The number of steps that the layout of several documents takes at most. -/
def Doc.weights : List Doc → Nat
  | [] => 0
  | doc :: docs => doc.weight + Doc.weights docs

end

namespace Layout.Absolute

/-- A document to be laid out, its absolute indentation, and the root column. -/
structure Command where
  indent : Nat
  root : Nat
  mode : Mode
  doc : Doc
  deriving DecidableEq

mutual

/-- Looks through a document from a column. -/
def measure (width : Nat) (mode : Mode) : Nat → Doc → Fit
  | column, .nil => .open column
  | column, .text content =>
    if content.isEmpty then .open column else advance width column (Text.stringWidth content)
  | column, .concat parts => measureAll width mode column parts
  | column, .line =>
    match mode with
    | .flat => advance width column 1
    | .broken => .settled true
  | _, .hardLine => .settled (mode = .broken)
  | _, .literalLine => .settled (mode = .broken)
  | column, .group inner => measure width mode column inner
  | column, .indent inner => measure width mode column inner
  | column, .dedent inner => measure width mode column inner
  | column, .align _ inner => measure width mode column inner
  | column, .root inner => measure width mode column inner

/-- Looks through several documents from a column. -/
def measureAll (width : Nat) (mode : Mode) : Nat → List Doc → Fit
  | column, [] => .open column
  | column, doc :: docs =>
    match measure width mode column doc with
    | .open column => measureAll width mode column docs
    | .settled fits => .settled fits

end

/-- Looks through the documents of a stack, all in broken mode. -/
def measureStack (width : Nat) : Nat → List Command → Bool
  | _, [] => true
  | column, command :: stack =>
    match measure width .broken column command.doc with
    | .open column => measureStack width column stack
    | .settled fits => fits

/-- Whether the content of a group fits when it is laid out flat from a column
in front of a stack. -/
def fitsFlat (width column : Nat) (content : Doc) (stack : List Command) : Bool :=
  match measure width .flat column content with
  | .open column => measureStack width column stack
  | .settled fits => fits

/-- What is left to do, the current column, and the pieces laid out so far, the
last one first. -/
structure State where
  stack : List Command
  column : Nat
  pieces : List Piece
  deriving DecidableEq

/-- The indentation of a line break in front of a stack. -/
def breakIndent (own : Nat) : List Command → Nat
  | [] => own
  | next :: _ => next.indent

/-- The state after a line break at an indentation. -/
def State.break (indent : Nat) (stack : List Command) (pieces : List Piece) : State where
  stack := stack
  column := indent
  pieces := .newline indent :: pieces

/-- The commands for the parts of a concatenation. -/
def commands (indent root : Nat) (mode : Mode) (parts : List Doc) : List Command :=
  (parts.filter fun part => !part.isTextless).map fun part => ⟨indent, root, mode, part⟩

/-- One step of the layout, or nothing if there is nothing left to do. -/
def step (width size : Nat) : State → Option State
  | ⟨[], _, _⟩ => none
  | ⟨⟨indent, root, mode, doc⟩ :: stack, column, pieces⟩ =>
    some <|
      match doc with
      | .nil => ⟨stack, column, pieces⟩
      | .text content =>
        if content.isEmpty then ⟨stack, column, pieces⟩
        else ⟨stack, column + Text.stringWidth content, .text content :: pieces⟩
      | .concat parts => ⟨commands indent root mode parts ++ stack, column, pieces⟩
      | .line =>
        match mode with
        | .flat => ⟨stack, column + 1, .space :: pieces⟩
        | .broken => .break (breakIndent indent stack) stack pieces
      | .hardLine => .break (breakIndent indent stack) stack pieces
      | .literalLine => .break root stack pieces
      | .group inner =>
        match mode with
        | .flat => ⟨⟨indent, root, .flat, inner⟩ :: stack, column, pieces⟩
        | .broken =>
          let mode := if fitsFlat width column inner stack then .flat else .broken
          ⟨⟨indent, root, mode, inner⟩ :: stack, column, pieces⟩
      | .indent inner => ⟨⟨indent + size, root, mode, inner⟩ :: stack, column, pieces⟩
      | .dedent inner => ⟨⟨indent - size, root, mode, inner⟩ :: stack, column, pieces⟩
      | .align columns inner => ⟨⟨indent + columns, root, mode, inner⟩ :: stack, column, pieces⟩
      | .root inner => ⟨⟨indent, indent, mode, inner⟩ :: stack, column, pieces⟩

/-- Makes up to a number of steps. -/
def run (width size : Nat) : Nat → State → State
  | 0, state => state
  | steps + 1, state =>
    match step width size state with
    | none => state
    | some next => run width size steps next

/-- The state in front of a document. -/
def State.start (doc : Doc) : State where
  stack := [⟨0, 0, .broken, doc⟩]
  column := 0
  pieces := []

/-- The pieces of the layout of a document. -/
def pieces (settings : Settings) (doc : Doc) : List Piece :=
  (run settings.width settings.indentSize doc.weight (.start doc)).pieces.reverse

end Layout.Absolute

end TreeFormat
