import TreeFormat.Layout.Absolute

/-!
# Places in a document

A position lists the indices on the way from a document down to one of its parts,
and the place of the part is found by following the way: it has the absolute
indentation and the root column that the documents above the part amount to.

The leaves of a document are its texts and line breaks.  Their positions, in
order, are what a layout has to work through.
-/

namespace TreeFormat

/-- A part of a document with the absolute indentation and the root column at
which it stands. -/
structure Place where
  indent : Nat
  root : Nat
  doc : Doc

/-- The place of a part one level further down: an `indent` adds a level, a
`dedent` takes one away and stops at the left edge, an `align` adds columns, and
a `root` makes the indentation the root column. -/
def Place.child? (size : Nat) : Place → Nat → Option Place
  | ⟨indent, root, .concat parts⟩, index => parts[index]?.map fun part => ⟨indent, root, part⟩
  | ⟨indent, root, .group inner⟩, 0 => some ⟨indent, root, inner⟩
  | ⟨indent, root, .indent inner⟩, 0 => some ⟨indent + size, root, inner⟩
  | ⟨indent, root, .dedent inner⟩, 0 => some ⟨indent - size, root, inner⟩
  | ⟨indent, root, .align columns inner⟩, 0 => some ⟨indent + columns, root, inner⟩
  | ⟨indent, _, .root inner⟩, 0 => some ⟨indent, indent, inner⟩
  | _, _ => none

/-- The place of the part of a document at a position, which lists the indices on
the way down to it. -/
def Doc.placeAt? (size : Nat) (doc : Doc) (position : List Nat) : Option Place :=
  position.foldlM (Place.child? size) ⟨0, 0, doc⟩

theorem Doc.placeAt?_append
    (size : Nat) (doc : Doc) (position : List Nat) (index : Nat) :
    doc.placeAt? size (position ++ [index]) =
      (doc.placeAt? size position).bind fun place => place.child? size index := by
  simp [Doc.placeAt?, List.foldlM_append]

/-! ## Leaves -/

mutual

/-- The positions of the texts and line breaks of a document in order.  Empty
texts are left out. -/
def Doc.leafPositions : Doc → List (List Nat)
  | .nil => []
  | .text content => if content.isEmpty then [] else [[]]
  | .concat parts => Doc.leafPositionsFrom 0 parts
  | .line => [[]]
  | .hardLine => [[]]
  | .literalLine => [[]]
  | .group inner => inner.leafPositions.map (0 :: ·)
  | .indent inner => inner.leafPositions.map (0 :: ·)
  | .dedent inner => inner.leafPositions.map (0 :: ·)
  | .align _ inner => inner.leafPositions.map (0 :: ·)
  | .root inner => inner.leafPositions.map (0 :: ·)

/-- The positions of the texts and line breaks of several documents, which are
counted from an index. -/
def Doc.leafPositionsFrom : Nat → List Doc → List (List Nat)
  | _, [] => []
  | index, part :: parts =>
    part.leafPositions.map (index :: ·) ++ Doc.leafPositionsFrom (index + 1) parts

end

theorem Doc.leafPositionsFrom_append
    (index : Nat) (parts : List Doc) (last : Doc) :
    Doc.leafPositionsFrom index (parts ++ [last]) =
      Doc.leafPositionsFrom index parts ++ last.leafPositions.map ((index + parts.length) :: ·) := by
  induction parts generalizing index with
  | nil => simp [Doc.leafPositionsFrom]
  | cons part parts ih =>
      simp only [List.cons_append, Doc.leafPositionsFrom, ih, List.append_assoc, List.length_cons]
      rw [show index + 1 + parts.length = index + (parts.length + 1) by omega]

mutual

theorem Doc.leafPositions_of_isTextless :
    ∀ doc : Doc, doc.isTextless = true → doc.leafPositions = []
  | .nil, _ => by rw [Doc.leafPositions]
  | .text content, hdoc => by
      rw [Doc.isTextless] at hdoc
      rw [Doc.leafPositions, if_pos hdoc]
  | .concat parts, hdoc => by
      rw [Doc.isTextless] at hdoc
      rw [Doc.leafPositions]
      exact Doc.leafPositionsFrom_of_areTextless parts hdoc 0
  | .line, hdoc => by simp [Doc.isTextless] at hdoc
  | .hardLine, hdoc => by simp [Doc.isTextless] at hdoc
  | .literalLine, hdoc => by simp [Doc.isTextless] at hdoc
  | .group inner, hdoc | .indent inner, hdoc | .dedent inner, hdoc | .align _ inner, hdoc
  | .root inner, hdoc => by
      rw [Doc.isTextless] at hdoc
      rw [Doc.leafPositions, Doc.leafPositions_of_isTextless inner hdoc, List.map_nil]

theorem Doc.leafPositionsFrom_of_areTextless :
    ∀ parts : List Doc, Doc.areTextless parts = true →
      ∀ index, Doc.leafPositionsFrom index parts = []
  | [], _, _ => by rw [Doc.leafPositionsFrom]
  | part :: parts, hparts, index => by
      rw [Doc.areTextless, Bool.and_eq_true] at hparts
      rw [Doc.leafPositionsFrom, Doc.leafPositions_of_isTextless part hparts.1,
        Doc.leafPositionsFrom_of_areTextless parts hparts.2, List.map_nil, List.append_nil]

end

end TreeFormat
