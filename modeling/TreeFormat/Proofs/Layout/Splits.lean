import TreeFormat.Proofs.Layout.Openings
import TreeFormat.Proofs.Layout.Places

/-!
# Layouts of parts

Outside groups a part of a document is laid out within the layout of the whole: the
pieces in front of it come from the leaves in front of it, and then its own pieces
follow.  `Layout.LaysAt` follows the way down to a part, one level after the other.
-/

namespace TreeFormat

open Layout

/-! ## Rows of documents -/

theorem Doc.areTextless_append (front back : List Doc) :
    Doc.areTextless (front ++ back) = (Doc.areTextless front && Doc.areTextless back) := by
  induction front with
  | nil => simp [Doc.areTextless]
  | cons part front ih =>
      rw [List.cons_append, Doc.areTextless, Doc.areTextless, ih, Bool.and_assoc]

namespace Layout

variable {width size : Nat}

theorem measureAll_append
    (mode : Mode) (column : Nat) (front back : List Doc) :
    Absolute.measureAll width mode column (front ++ back) =
      match Absolute.measureAll width mode column front with
      | .open column => Absolute.measureAll width mode column back
      | .settled fits => .settled fits := by
  induction front generalizing column with
  | nil => rfl
  | cons part front ih =>
      rw [List.cons_append, Absolute.measureAll, Absolute.measureAll]
      cases Absolute.measure width mode column part with
      | «open» column => exact ih column
      | settled fits => rfl

theorem inFrontOfAll_append
    (context : Context) (own : Nat) (front back : List Doc) :
    context.inFrontOfAll width own (front ++ back) =
      (context.inFrontOfAll width own back).inFrontOfAll width own front := by
  simp only [Context.inFrontOfAll, Context.mk.injEq]
  constructor
  · rw [Doc.areTextless_append]
    cases Doc.areTextless front <;> simp
  · funext column
    rw [measureAll_append]
    cases Absolute.measureAll width .broken column front <;> rfl

/-- One row of documents in front of another one. -/
theorem layAll_append
    (front back : List Doc) (own base : Nat) (mode : Mode) (context : Context) (column : Nat) :
    let first := Doc.layAll width size front own base mode
      (context.inFrontOfAll width own back) column
    let rest := Doc.layAll width size back own base mode context first.1
    Doc.layAll width size (front ++ back) own base mode context column =
      (rest.1, first.2 ++ rest.2) := by
  induction front generalizing column with
  | nil => rfl
  | cons part front ih =>
      simp only [List.cons_append, Doc.layAll, ih, inFrontOfAll_append, List.append_assoc]

/-! ## Counting leaves -/

mutual

theorem length_leafPositions : ∀ doc : Doc,
    doc.leafPositions.length = (doc.leaves.filter Leaf.isVisible).length
  | .nil => rfl
  | .text content => by
      by_cases hempty : content.isEmpty = true <;>
        simp [Doc.leafPositions, Doc.leaves, Leaf.isVisible, hempty]
  | .concat parts => by
      rw [Doc.leafPositions, Doc.leaves]
      exact length_leafPositionsFrom 0 parts
  | .line => rfl
  | .hardLine => rfl
  | .literalLine => rfl
  | .group inner => by
      rw [Doc.leafPositions, Doc.leaves, List.length_map]
      exact length_leafPositions inner
  | .indent inner => by
      rw [Doc.leafPositions, Doc.leaves, List.length_map]
      exact length_leafPositions inner
  | .dedent inner => by
      rw [Doc.leafPositions, Doc.leaves, List.length_map]
      exact length_leafPositions inner
  | .align _ inner => by
      rw [Doc.leafPositions, Doc.leaves, List.length_map]
      exact length_leafPositions inner
  | .root inner => by
      rw [Doc.leafPositions, Doc.leaves, List.length_map]
      exact length_leafPositions inner

theorem length_leafPositionsFrom : ∀ (index : Nat) (parts : List Doc),
    (Doc.leafPositionsFrom index parts).length =
      ((Doc.allLeaves parts).filter Leaf.isVisible).length
  | _, [] => rfl
  | index, part :: parts => by
      rw [Doc.leafPositionsFrom, Doc.allLeaves, List.filter_append, List.length_append,
        List.length_append, List.length_map, length_leafPositions part,
        length_leafPositionsFrom (index + 1) parts]

end

/-- The number of leaves in front of a place. -/
def countBefore (doc : Doc) (place : List Nat) : Nat :=
  (doc.leafPositions.filter fun position => decide (position < place)).length

theorem filter_map_cons (index : Nat) (place : List Nat) (positions : List (List Nat)) :
    ((positions.map (index :: ·)).filter
      fun position => decide (position < index :: place)).length =
      (positions.filter fun position => decide (position < place)).length := by
  rw [List.filter_map, List.length_map]
  congr 2
  funext position
  simp

theorem filter_leafPositionsFrom_behind
    {index later : Nat} (hlater : index < later) (place : List Nat) (parts : List Doc) :
    (Doc.leafPositionsFrom later parts).filter
      (fun position => decide (position < index :: place)) = [] := by
  induction parts generalizing later with
  | nil => rfl
  | cons part parts ih =>
      rw [Doc.leafPositionsFrom, List.filter_append, ih (Nat.lt_succ_of_lt hlater),
        List.append_nil, List.filter_eq_nil_iff]
      intro position hposition
      obtain ⟨inner, -, rfl⟩ := List.mem_map.1 hposition
      simp only [List.cons_lt_cons_iff, decide_eq_true_eq]
      omega

/-- All leaves of the parts in front of a part are in front of a place in it. -/
theorem countBefore_concat (front : List Doc) (part : Doc) (back : List Doc) (place : List Nat) :
    countBefore (.concat (front ++ part :: back)) (front.length :: place) =
      ((Doc.allLeaves front).filter Leaf.isVisible).length + countBefore part place := by
  have hfrom : ∀ index,
      ((Doc.leafPositionsFrom index (front ++ part :: back)).filter fun position =>
        decide (position < (index + front.length) :: place)).length =
      ((Doc.allLeaves front).filter Leaf.isVisible).length + countBefore part place := by
    induction front with
    | nil =>
        intro index
        rw [List.length_nil, Nat.add_zero, List.nil_append, Doc.leafPositionsFrom,
          List.filter_append, filter_leafPositionsFrom_behind (Nat.lt_succ_self _),
          List.append_nil]
        simpa [Doc.allLeaves, countBefore] using filter_map_cons index place part.leafPositions
    | cons first front ih =>
        intro index
        have hrest := ih (index + 1)
        have hshift : index + (first :: front).length = index + 1 + front.length := by
          rw [List.length_cons]
          omega
        have hall : (first.leafPositions.map (index :: ·)).filter (fun position =>
            decide (position < (index + 1 + front.length) :: place)) =
              first.leafPositions.map (index :: ·) := by
          rw [List.filter_eq_self]
          intro position hposition
          obtain ⟨inner, -, rfl⟩ := List.mem_map.1 hposition
          simp only [List.cons_lt_cons_iff, decide_eq_true_eq]
          omega
        rw [List.cons_append, Doc.leafPositionsFrom, List.filter_append, List.length_append, hshift,
          hrest, hall, List.length_map, length_leafPositions, Doc.allLeaves, List.filter_append,
          List.length_append, Nat.add_assoc]
  have hzero := hfrom 0
  rwa [Nat.zero_add] at hzero

/-! ## The way down to a part -/

/-- A part and what its layout depends on. -/
structure Spot where
  place : Place
  context : Context
  column : Nat

/-- The pieces of a part where every line of its own breaks the line. -/
def Spot.pieces (width size : Nat) (spot : Spot) : List Piece :=
  (spot.place.doc.lay width size spot.place.indent spot.place.root .broken spot.context
    spot.column).2

/-- The way down from a part leads to another part, and the pieces of the latter stand
among those of the former, behind the pieces of the leaves in front of it. -/
structure LaysAt (width size : Nat) (outer : Spot) (way : List Nat) (front : List Piece)
    (inner : Spot) : Prop where
  place : way.foldlM (Place.child? size) outer.place = some inner.place
  pieces : ∃ back, outer.pieces width size = front ++ inner.pieces width size ++ back
  count : front.length = countBefore outer.place.doc way

namespace LaysAt

theorem here (spot : Spot) : LaysAt width size spot [] [] spot where
  place := rfl
  pieces := ⟨[], by simp⟩
  count := by simp [countBefore]

theorem root
    {own base column : Nat} {inner : Doc} {context : Context} {way : List Nat}
    {front : List Piece} {spot : Spot}
    (hlays : LaysAt width size ⟨⟨own, own, inner⟩, context, column⟩ way front spot) :
    LaysAt width size ⟨⟨own, base, .root inner⟩, context, column⟩ (0 :: way) front spot where
  place := hlays.place
  pieces := hlays.pieces
  count := by
    rw [hlays.count]
    exact (filter_map_cons 0 way inner.leafPositions).symm

theorem indent
    {own base column : Nat} {inner : Doc} {context : Context} {way : List Nat}
    {front : List Piece} {spot : Spot}
    (hlays : LaysAt width size ⟨⟨own + size, base, inner⟩, context, column⟩ way front spot) :
    LaysAt width size ⟨⟨own, base, .indent inner⟩, context, column⟩ (0 :: way) front spot where
  place := hlays.place
  pieces := hlays.pieces
  count := by
    rw [hlays.count]
    exact (filter_map_cons 0 way inner.leafPositions).symm

/-- The pieces of the parts in front of a part come before those of the part. -/
theorem concat
    {own base column : Nat} {parts behind : List Doc} {part : Doc} {context : Context}
    {way : List Nat} {front : List Piece} {spot : Spot}
    (hlays :
      let first := Doc.layAll width size parts own base .broken
        (context.inFrontOfAll width own (part :: behind)) column
      LaysAt width size ⟨⟨own, base, part⟩, context.inFrontOfAll width own behind, first.1⟩ way
        front spot) :
    let first := Doc.layAll width size parts own base .broken
      (context.inFrontOfAll width own (part :: behind)) column
    LaysAt width size ⟨⟨own, base, .concat (parts ++ part :: behind)⟩, context, column⟩
      (parts.length :: way) (first.2 ++ front) spot := by
  intro first
  obtain ⟨hplace, ⟨back, hpieces⟩, hcount⟩ := hlays
  constructor
  · simpa [Place.child?] using hplace
  · let middle := part.lay width size own base .broken
      (context.inFrontOfAll width own behind) first.1
    let rest := Doc.layAll width size behind own base .broken context middle.1
    have hmiddle : middle.2 = front ++ spot.pieces width size ++ back := hpieces
    have hwhole : Spot.pieces width size
        ⟨⟨own, base, .concat (parts ++ part :: behind)⟩, context, column⟩ =
          first.2 ++ (middle.2 ++ rest.2) := by
      rw [Spot.pieces, Doc.lay, layAll_append]
      rfl
    refine ⟨back ++ rest.2, ?_⟩
    rw [hwhole, hmiddle]
    simp only [List.append_assoc]
  · have hfirst := @becomes_layAll width size parts own base .broken
      (context.inFrontOfAll width own (part :: behind)) column
    rw [List.length_append, countBefore_concat, hcount, hfirst.length_eq]

end LaysAt

/-- A line break in front of a part that is written leads to the part. -/
theorem layAll_break
    {separator part : Doc} (hseparator : separator = .line ∨ separator = .hardLine)
    (hpart : part.isTextless = false) (front behind : List Doc) (own base : Nat)
    (context : Context) (column : Nat) :
    (Doc.layAll width size (front ++ [separator]) own base .broken
      (context.inFrontOfAll width own (part :: behind)) column).2.getLast? =
        some (.newline own) := by
  rw [layAll_append]
  rcases hseparator with rfl | rfl <;>
    simp [Doc.layAll, Doc.lay, breakAt, Context.inFrontOfAll, Doc.areTextless, hpart]

end Layout

end TreeFormat
