import TreeFormat.Layout.Machine

/-!
# Rendering documents

`render` lays a document out within a width and writes the layout.
-/

namespace TreeFormat

/-- How wide a line should be, and how many columns a level of indentation has. -/
structure Settings where
  width : Nat := 80
  indentSize : Nat := 2
  deriving DecidableEq, Repr

namespace Layout

/-- The pieces of the layout of a document. -/
def pieces (settings : Settings) (doc : Doc) : List Piece :=
  layOut settings.width (toRelative settings.indentSize 0 0 doc)

/-- The text of the layout of a document. -/
def render (settings : Settings) (doc : Doc) : String :=
  String.ofList (write 0 (pieces settings doc))

end Layout

end TreeFormat
