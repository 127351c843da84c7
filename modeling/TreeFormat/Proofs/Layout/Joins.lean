import TreeFormat.Proofs.Layout.Columns

/-!
# Documents on lines of their own

Between two documents stands a line break, and both begin at the left edge.  Then neither
of them is laid out differently because of the other (`Layout.render_join_hardLine`).

What comes behind a document matters to it in two ways.  A group asks whether its line
fits, and the line ends at the break, as it does at the end of everything.  A break at the
end of the document takes its indentation from what comes behind, but then the line stays
empty and the indentation is never written.
-/

namespace TreeFormat

namespace Layout

/-- Pieces that differ at most in the indentation of a line break at their end. -/
inductive Alike : List Piece → List Piece → Prop where
  | refl (pieces : List Piece) : Alike pieces pieces
  | last (front : List Piece) (indent indent' : Nat) :
      Alike (front ++ [.newline indent]) (front ++ [.newline indent'])

theorem Alike.behind
    {first second : List Piece} (halike : Alike first second) (front : List Piece) :
    Alike (front ++ first) (front ++ second) := by
  cases halike with
  | refl => exact .refl _
  | last middle indent indent' =>
      rw [← List.append_assoc, ← List.append_assoc]
      exact .last (front ++ middle) indent indent'

/-! ## Writing in front of a break -/

/-- The indentation of a line break at the end is not written. -/
theorem write_of_alike
    {first second : List Piece} (halike : Alike first second) (pending : Nat) :
    write pending first = write pending second := by
  cases halike with
  | refl => rfl
  | last front indent indent' =>
      rw [write_newline, write_newline]
      rfl

/-! ## Contexts in which the same lines fit -/

section Contexts

variable {width size : Nat} {context context' : Context}

theorem groupMode_of_fits
    (hfits : context.fits = context'.fits) (mode : Mode) (content : Fit) :
    context.groupMode mode content = context'.groupMode mode content := by
  have hbehind : context.fitsBehind content = context'.fitsBehind content := by
    cases content with
    | «open» column => exact congrFun hfits column
    | settled fits => rfl
  simp only [Context.groupMode, hbehind]

theorem fits_inFrontOfAll
    (hfits : context.fits = context'.fits) (own : Nat) (parts : List Doc) :
    (context.inFrontOfAll width own parts).fits = (context'.inFrontOfAll width own parts).fits := by
  funext column
  simp only [Context.inFrontOfAll]
  cases Absolute.measureAll width .broken column parts with
  | «open» behind => exact congrFun hfits behind
  | settled fits => rfl

/-- In front of a part that is written the rest of the context is out of sight. -/
theorem inFrontOfAll_of_fits
    (hfits : context.fits = context'.fits) (own : Nat) {parts : List Doc}
    (hparts : Doc.areTextless parts = false) :
    context.inFrontOfAll width own parts = context'.inFrontOfAll width own parts := by
  rw [Context.mk.injEq]
  constructor
  · simp only [Context.inFrontOfAll, hparts, Bool.false_eq_true, if_false]
  · exact fits_inFrontOfAll hfits own parts

theorem layAll_of_areTextless
    {parts : List Doc} (hparts : Doc.areTextless parts = true) (own base : Nat) (mode : Mode)
    (context : Context) (column : Nat) :
    Doc.layAll width size parts own base mode context column = (column, []) := by
  have htextless : Doc.isTextless (.concat parts) = true := hparts
  exact Absolute.lay_of_isTextless htextless own base mode context column

mutual

/-- A document is laid out alike wherever the same lines fit behind it. -/
theorem alike_lay :
    ∀ (doc : Doc) (own base : Nat) (mode : Mode) {context context' : Context} (column : Nat),
      context.fits = context'.fits →
        Alike (doc.lay width size own base mode context column).2
          (doc.lay width size own base mode context' column).2
  | .nil, _, _, _, _, _, _, _ => .refl _
  | .text _, _, _, _, _, _, _, _ => .refl _
  | .concat parts, own, base, mode, _, _, column, hfits =>
      alike_layAll parts own base mode column hfits
  | .line, _, _, mode, _, _, _, _ => by
      cases mode with
      | flat => exact .refl _
      | broken => exact .last [] _ _
  | .hardLine, _, _, _, _, _, _, _ => .last [] _ _
  | .literalLine, _, _, _, _, _, _, _ => .refl _
  | .group inner, own, base, mode, _, _, column, hfits => by
      rw [Doc.lay, Doc.lay, groupMode_of_fits hfits]
      exact alike_lay inner own base _ column hfits
  | .indent inner, own, base, mode, _, _, column, hfits =>
      alike_lay inner (own + size) base mode column hfits
  | .dedent inner, own, base, mode, _, _, column, hfits =>
      alike_lay inner (own - size) base mode column hfits
  | .align columns inner, own, base, mode, _, _, column, hfits =>
      alike_lay inner (own + columns) base mode column hfits
  | .root inner, own, _, mode, _, _, column, hfits =>
      alike_lay inner own own mode column hfits

theorem alike_layAll :
    ∀ (parts : List Doc) (own base : Nat) (mode : Mode) {context context' : Context}
      (column : Nat), context.fits = context'.fits →
        Alike (Doc.layAll width size parts own base mode context column).2
          (Doc.layAll width size parts own base mode context' column).2
  | [], _, _, _, _, _, _, _ => .refl _
  | part :: parts, own, base, mode, context, context', column, hfits => by
      rw [Doc.layAll, Doc.layAll]
      by_cases hparts : Doc.areTextless parts = true
      · -- Nothing is written behind the part, so its last break may differ.
        simp only [layAll_of_areTextless hparts, List.append_nil]
        exact alike_lay part own base mode column (fits_inFrontOfAll hfits own parts)
      · rw [Bool.not_eq_true] at hparts
        rw [inFrontOfAll_of_fits hfits own hparts]
        exact (alike_layAll parts own base mode _ hfits).behind _

end

end Contexts

/-! ## Joined documents -/

/-- The line break between two documents leads back to the left edge. -/
theorem layAll_cons_hardLine
    (width size : Nat) (doc : Doc) (rest : List Doc) :
    (Doc.layAll width size (doc :: .hardLine :: rest) 0 0 .broken .atEnd 0).2 =
      (doc.lay width size 0 0 .broken
          (Context.atEnd.inFrontOfAll width 0 (.hardLine :: rest)) 0).2 ++
        .newline 0 :: (Doc.layAll width size rest 0 0 .broken .atEnd 0).2 := by
  have hleft : (Context.atEnd.inFrontOfAll width 0 rest).next.getD 0 = 0 := by
    simp only [Context.inFrontOfAll]
    split <;> rfl
  simp only [Doc.layAll, Doc.lay, hleft]
  rfl

/-- What the documents write is written line by line: the lines that fit in front of a
break are those that fit at the end. -/
theorem write_layAll_join
    (width size : Nat) (docs : List Doc) :
    write 0 (Doc.layAll width size (docs.intersperse .hardLine) 0 0 .broken .atEnd 0).2 =
      ['\n'].intercalate (docs.map fun doc =>
        write 0 (doc.lay width size 0 0 .broken .atEnd 0).2) := by
  induction docs with
  | nil => rfl
  | cons doc docs ih =>
      cases docs with
      | nil =>
          rw [List.intersperse_singleton, List.map_singleton, List.intercalate_singleton]
          simp only [Doc.layAll, List.append_nil]
          rfl
      | cons next docs =>
          let rest := (next :: docs).intersperse Doc.hardLine
          have hfits : (Context.atEnd.inFrontOfAll width 0 (.hardLine :: rest)).fits =
              Context.atEnd.fits := rfl
          have halike := @alike_lay width size doc 0 0 .broken _ _ 0 hfits
          rw [List.intersperse_cons_cons, layAll_cons_hardLine, write_newline,
            write_of_alike halike, ih]
          simp only [List.map_cons, List.intercalate_cons_cons, List.append_assoc]
          rfl

theorem render_eq_write (settings : Settings) (doc : Doc) :
    render settings doc = String.ofList
      (write 0 (doc.lay settings.width settings.indentSize 0 0 .broken .atEnd 0).2) := by
  rw [render, pieces_eq_absolute, Absolute.pieces_eq_lay]

/-- Documents that are joined by line breaks at the left edge are rendered one by one. -/
theorem render_join_hardLine (settings : Settings) (docs : List Doc) :
    render settings (.root (.join .hardLine docs)) =
      "\n".intercalate (docs.map (render settings)) := by
  rw [← String.toList_inj, String.toList_intercalate, List.map_map, render_eq_write,
    String.toList_ofList]
  have hjoined := write_layAll_join settings.width settings.indentSize docs
  have hlines : String.toList ∘ render settings = fun doc =>
      write 0 (doc.lay settings.width settings.indentSize 0 0 .broken .atEnd 0).2 := by
    funext doc
    rw [Function.comp_apply, render_eq_write, String.toList_ofList]
  rw [hlines]
  exact hjoined

end Layout

end TreeFormat
