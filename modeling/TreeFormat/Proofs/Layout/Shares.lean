import TreeFormat.Proofs.Layout.Interchange
import TreeFormat.Proofs.Layout.Steady

/-!
# Shares of a layout

A document with a forced break is never laid out flat: a group around it does not fit on
one line, however wide the line is.  So inside any document it is laid out in broken mode,
at the indentation of its place, and its share of the pieces stands between those of what
is in front of it and those of what is behind (`Layout.exists_share`).
-/

namespace TreeFormat

open Layout

namespace Layout

/-- The visible leaves turn into the pieces one by one. -/
def PiecesOf (leaves : List Leaf) (pieces : List Piece) : Prop :=
  List.Forall₂ (fun leaf piece => Becomes leaf (Run.ofPiece piece))
    (leaves.filter Leaf.isVisible) pieces

theorem PiecesOf.append
    {leaves leaves' : List Leaf} {pieces pieces' : List Piece}
    (hfirst : PiecesOf leaves pieces) (hsecond : PiecesOf leaves' pieces') :
    PiecesOf (leaves ++ leaves') (pieces ++ pieces') := by
  rw [PiecesOf, List.filter_append]
  exact List.rel_append hfirst hsecond

/-- Inside any document, a document with a forced break has a share of the layout, which is
its own layout in broken mode at the indentation of its place. -/
theorem exists_share
    {doc : Doc} (hbreak : ∃ leaf ∈ doc.leaves, leaf.isBreak = true) (width size : Nat)
    (outside : Doc.Surroundings) :
    ∀ (own base : Nat) (context : Context) (column : Nat), ∃ before base' context' column' after,
      ((outside.fill doc).lay width size own base .broken context column).2 =
        before ++ (doc.lay width size (outside.indentAt size own) base' .broken context' column').2 ++
          after ∧
      PiecesOf outside.leavesAhead before ∧ PiecesOf outside.leavesBehind after := by
  induction outside with
  | hole =>
      intro own base context column
      exact ⟨[], base, context, column, [], by simp [Doc.Surroundings.fill,
        Doc.Surroundings.indentAt], .nil, .nil⟩
  | concat front inner back ih =>
      intro own base context column
      let first := Doc.layAll width size front own base .broken
        (context.inFrontOfAll width own (inner.fill doc :: back)) column
      let middle := (inner.fill doc).lay width size own base .broken
        (context.inFrontOfAll width own back) first.1
      let rest := Doc.layAll width size back own base .broken context middle.1
      obtain ⟨before, base', context', column', after, hmiddle, hbefore, hafter⟩ :=
        ih own base (context.inFrontOfAll width own back) first.1
      refine ⟨first.2 ++ before, base', context', column', after ++ rest.2, ?_, ?_, ?_⟩
      · have hrow : (((Doc.Surroundings.concat front inner back).fill doc).lay width size own base
            .broken context column).2 = first.2 ++ (middle.2 ++ rest.2) := by
          rw [Doc.Surroundings.fill, Doc.lay, layAll_append]
          rfl
        have hmiddle' : middle.2 = before ++ (doc.lay width size (inner.indentAt size own) base'
            .broken context' column').2 ++ after := hmiddle
        rw [hrow, hmiddle', Doc.Surroundings.indentAt]
        simp only [List.append_assoc]
      · exact PiecesOf.append (becomes_layAll front own base .broken _ column) hbefore
      · exact PiecesOf.append hafter (becomes_layAll back own base .broken context _)
  | group inner ih =>
      intro own base context column
      -- The forced break is inside the group as well, so the group is not flat.
      have hinside : ∃ leaf ∈ (inner.fill doc).leaves, leaf.isBreak = true := by
        obtain ⟨leaf, hleaf, hforced⟩ := hbreak
        refine ⟨leaf, ?_, hforced⟩
        rw [Doc.Surroundings.leaves_fill]
        simp [hleaf]
      rw [Doc.Surroundings.fill, Doc.lay, groupMode_of_break hinside]
      exact ih own base context column
  | indent inner ih =>
      intro own base context column
      exact ih (own + size) base context column
  | dedent inner ih =>
      intro own base context column
      exact ih (own - size) base context column
  | align columns inner ih =>
      intro own base context column
      exact ih (own + columns) base context column
  | root inner ih =>
      intro own base context column
      exact ih own own context column

end Layout

end TreeFormat
