/-!
# Pieces of a layout

A layout is a sequence of pieces: texts, the spaces of lines that did not break,
and line breaks with the indentation of the line after them.

Writing a layout holds the indentation back until something follows on the line.
A line that stays empty, or a text that starts with a line break of its own,
gets none.
-/

namespace TreeFormat.Layout

/-- A part of a layout. -/
inductive Piece where
  | text (content : String)
  /-- The space of a line that did not break. -/
  | space
  /-- A line break, and the indentation of the line after it. -/
  | newline (indent : Nat)
  deriving DecidableEq, Repr

/-- A run of spaces. -/
def spaces (count : Nat) : List Char :=
  List.replicate count ' '

/-- Writes pieces behind an indentation that is still held back. -/
def write : Nat → List Piece → List Char
  | _, [] => []
  | _, .newline indent :: rest => '\n' :: write indent rest
  | pending, .space :: rest => spaces pending ++ ' ' :: write 0 rest
  | pending, .text content :: rest =>
    (if content.toList.head? = some '\n' then [] else spaces pending) ++
      (content.toList ++ write 0 rest)

end TreeFormat.Layout
