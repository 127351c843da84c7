import TreeFormat.Layout.Piece
import TreeFormat.Layout.Relative
import TreeFormat.Text.Width

/-!
# The layout machine

The machine works on a stack of commands.  A command is a part of a document
with an indentation and a mode: in flat mode a line is a space, in broken mode
it is a line break.  The machine starts with the whole document in broken mode.

A group in broken mode becomes flat if its content fits: laid out flat, together
with what follows up to the next possible line break, it has to end within the
width.  A forced line break inside the content means that it does not fit.

A line break takes the indentation of the command that is next on the stack, or
its own if there is none.
-/

namespace TreeFormat.Layout

/-- How lines are laid out. -/
inductive Mode where
  | flat | broken
  deriving DecidableEq, Repr

/-- What a look at a part of a document says about whether it fits. -/
inductive Fit where
  | settled (fits : Bool)
  /-- Nothing yet; the part ends in this column. -/
  | open (column : Nat)
  deriving DecidableEq, Repr

/-- The column behind a number of cells, if it is within the width. -/
def advance (width column cells : Nat) : Fit :=
  if width < column + cells then .settled false else .open (column + cells)

/-- Looks through a part of a document from a column. -/
def measure (width : Nat) (mode : Mode) : Nat → Relative → Fit
  | column, .nil => .open column
  | column, .anchor => .open column
  | column, .text content => advance width column (Text.stringWidth content)
  | column, .append first second =>
    match measure width mode column first with
    | .open column => measure width mode column second
    | .settled fits => .settled fits
  | column, .line =>
    match mode with
    | .flat => advance width column 1
    | .broken => .settled true
  | _, .hardLine => .settled (mode = .broken)
  | column, .group inner => measure width mode column inner
  | column, .nest _ inner => measure width mode column inner

/-- A part of a document to be laid out. -/
structure Command where
  indent : Nat
  mode : Mode
  doc : Relative
  deriving DecidableEq, Repr

/-- Looks through the commands of a stack, all in broken mode. -/
def measureStack (width : Nat) : Nat → List Command → Bool
  | _, [] => true
  | column, command :: stack =>
    match measure width .broken column command.doc with
    | .open column => measureStack width column stack
    | .settled fits => fits

/-- Whether the content of a group fits when it is laid out flat from a column
in front of a stack. -/
def fitsFlat (width column : Nat) (content : Relative) (stack : List Command) : Bool :=
  match measure width .flat column content with
  | .open column => measureStack width column stack
  | .settled fits => fits

/-- A state of the machine: what is left to do, the current column, and the
pieces laid out so far, the last one first. -/
structure State where
  stack : List Command
  column : Nat
  pieces : List Piece
  deriving DecidableEq, Repr

/-- An indentation moved by an offset; it stops at the left edge. -/
def shift (indent : Nat) (offset : Int) : Nat :=
  (indent + offset).toNat

/-- The indentation of a line break in front of a stack. -/
def breakIndent (own : Nat) : List Command → Nat
  | [] => own
  | next :: _ => next.indent

/-- The state after a line break. -/
def State.break (own : Nat) (stack : List Command) (pieces : List Piece) : State where
  stack := stack
  column := breakIndent own stack
  pieces := .newline (breakIndent own stack) :: pieces

/-- One step of the machine, or nothing if there is nothing left to do. -/
def step (width : Nat) : State → Option State
  | ⟨[], _, _⟩ => none
  | ⟨⟨indent, mode, doc⟩ :: stack, column, pieces⟩ =>
    some <|
      match doc with
      | .nil | .anchor => ⟨stack, column, pieces⟩
      | .text content => ⟨stack, column + Text.stringWidth content, .text content :: pieces⟩
      | .append first second =>
        ⟨⟨indent, mode, first⟩ :: ⟨indent, mode, second⟩ :: stack, column, pieces⟩
      | .line =>
        match mode with
        | .flat => ⟨stack, column + 1, .space :: pieces⟩
        | .broken => .break indent stack pieces
      | .hardLine => .break indent stack pieces
      | .group inner =>
        match mode with
        | .flat => ⟨⟨indent, .flat, inner⟩ :: stack, column, pieces⟩
        | .broken =>
          let mode := if fitsFlat width column inner stack then .flat else .broken
          ⟨⟨indent, mode, inner⟩ :: stack, column, pieces⟩
      | .nest offset inner => ⟨⟨shift indent offset, mode, inner⟩ :: stack, column, pieces⟩

/-- The number of steps that a part of a document takes. -/
def Relative.weight : Relative → Nat
  | .append first second => first.weight + second.weight + 1
  | .group inner => inner.weight + 1
  | .nest _ inner => inner.weight + 1
  | _ => 1

/-- Makes up to a number of steps. -/
def run (width : Nat) : Nat → State → State
  | 0, state => state
  | steps + 1, state =>
    match step width state with
    | none => state
    | some next => run width steps next

/-- The state of the machine in front of a document. -/
def State.start (doc : Relative) : State where
  stack := [⟨0, .broken, doc⟩]
  column := 0
  pieces := []

/-- The pieces of the layout of a document. -/
def layOut (width : Nat) (doc : Relative) : List Piece :=
  (run width doc.weight (.start doc)).pieces.reverse

end TreeFormat.Layout
