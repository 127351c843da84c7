import TreeFormat.Layout.Doc

/-!
# Documents with relative indentation

The layout machine knows one way only to change the indentation: a part of a
document is nested by some columns more or less.  `Doc.toRelative` follows the
absolute indentation on its way through a document and turns every change into
the matching offset.

Parts without any text or line break vanish on the way, so that every part that
is left is a command of its own to the machine.  A line break takes its
indentation from the command after it; the one of a literal line therefore has
an empty part after it that is nested back to the root and is kept.
-/

namespace TreeFormat.Layout

/-- A document whose indentation changes by offsets. -/
inductive Relative where
  | nil
  | text (content : String)
  | append (first second : Relative)
  | line
  | hardLine
  | group (inner : Relative)
  | nest (offset : Int) (inner : Relative)
  /-- An empty part that is kept as a command. -/
  | anchor
  deriving DecidableEq, Repr

namespace Relative

/-- A text; the empty one vanishes. -/
def ofText (content : String) : Relative :=
  if content.isEmpty then nil else text content

/-- One part after another; an empty one vanishes. -/
def andThen : Relative → Relative → Relative
  | nil, second => second
  | first, nil => first
  | first, second => append first second

/-- A part that is nested; an empty one and an offset of zero vanish. -/
def nested (offset : Int) : Relative → Relative
  | nil => nil
  | inner => if offset = 0 then inner else nest offset inner

/-- A group; an empty one vanishes. -/
def grouped : Relative → Relative
  | nil => nil
  | inner => group inner

/-- A line break that returns to the root column, which lies `offset` columns
away. -/
def literalLine (offset : Int) : Relative :=
  nested offset (append hardLine anchor)

end Relative

mutual

/-- The relative form of a document at an absolute indentation and a root
column. -/
def toRelative (size indent root : Nat) : Doc → Relative
  | .nil => .nil
  | .text content => .ofText content
  | .concat parts => toRelatives size indent root .nil parts
  | .line => .line
  | .hardLine => .hardLine
  | .literalLine => .literalLine (root - indent)
  | .group inner => .grouped (toRelative size indent root inner)
  | .indent inner => .nested size (toRelative size (indent + size) root inner)
  | .dedent inner =>
    .nested ((indent - size : Nat) - indent) (toRelative size (indent - size) root inner)
  | .align columns inner => .nested columns (toRelative size (indent + columns) root inner)
  | .root inner => toRelative size indent indent inner

/-- The relative form of several documents one after the other, behind a first
part. -/
def toRelatives (size indent root : Nat) (first : Relative) : List Doc → Relative
  | [] => first
  | doc :: docs =>
    toRelatives size indent root (first.andThen (toRelative size indent root doc)) docs

end

end TreeFormat.Layout
