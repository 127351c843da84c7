import TreeFormat.Proofs.Layout.Interchange

/-!
# Laws of indentation

A document is laid out at the absolute indentation that the documents around it amount to,
so changes of the indentation compose like the sums and differences behind them
(`Layout.render_indentation`).  Adding a level and taking it away again is no change
anywhere.  The other way round the left edge is in the way: what a `dedent` does not find,
the `indent` inside it still adds.  The two cancel where there is a level to take away.
-/

namespace TreeFormat

open Layout

namespace Doc

namespace Interchangeable

theorem indent_dedent (doc : Doc) : Interchangeable (.indent (.dedent doc)) doc where
  textless := rfl
  measure _ _ _ := rfl
  lay width size own base mode context column := by
    rw [Doc.lay, Doc.lay, Nat.add_sub_cancel]

theorem align_align (columns columns' : Nat) (doc : Doc) :
    Interchangeable (.align columns (.align columns' doc)) (.align (columns + columns') doc) where
  textless := rfl
  measure _ _ _ := rfl
  lay width size own base mode context column := by
    rw [Doc.lay, Doc.lay, Doc.lay, Nat.add_assoc]

theorem align_zero (doc : Doc) : Interchangeable (.align 0 doc) doc where
  textless := rfl
  measure _ _ _ := rfl
  lay width size own base mode context column := by
    rw [Doc.lay, Nat.add_zero]

theorem align_indent (columns : Nat) (doc : Doc) :
    Interchangeable (.align columns (.indent doc)) (.indent (.align columns doc)) where
  textless := rfl
  measure _ _ _ := rfl
  lay width size own base mode context column := by
    rw [Doc.lay, Doc.lay, Doc.lay, Doc.lay, Nat.add_right_comm]

theorem root_root (doc : Doc) : Interchangeable (.root (.root doc)) (.root doc) where
  textless := rfl
  measure _ _ _ := rfl
  lay width size own base mode context column := by
    rw [Doc.lay, Doc.lay, Doc.lay]

/-- The inner group asks the question that the outer one has settled. -/
theorem group_group (doc : Doc) : Interchangeable (.group (.group doc)) (.group doc) where
  textless := rfl
  measure _ _ _ := rfl
  lay width size own base mode context column := by
    let fit := Absolute.measure width .flat column doc
    have hmode : context.groupMode (context.groupMode mode fit) fit = context.groupMode mode fit := by
      cases mode with
      | flat => rfl
      | broken =>
          by_cases hfits : context.fitsBehind fit = true
          · simp only [Context.groupMode, if_pos hfits]
          · simp only [Context.groupMode, if_neg hfits]
    rw [Doc.lay, Doc.lay, Doc.lay, Absolute.measure, hmode]

end Interchangeable

/-- Taking a level away and adding it again leaves the columns that were not there to be
taken. -/
theorem InterchangeableAt.dedent_indent (size own : Nat) (doc : Doc) :
    InterchangeableAt size own (.dedent (.indent doc)) (.align (size - own) doc) where
  textless := rfl
  measure _ _ _ := rfl
  lay width base mode context column := by
    have hown : own - size + size = own + (size - own) := by omega
    rw [Doc.lay, Doc.lay, Doc.lay, hown]

theorem InterchangeableAt.dedent_indent_of_le
    {size own : Nat} (hlevel : size ≤ own) (doc : Doc) :
    InterchangeableAt size own (.dedent (.indent doc)) doc := by
  have hcolumns : size - own = 0 := Nat.sub_eq_zero_of_le hlevel
  have h := InterchangeableAt.dedent_indent size own doc
  rw [hcolumns] at h
  exact h.trans (interchangeable_iff.1 (.align_zero doc) size own)

end Doc

namespace Layout

/-- Changes of the indentation compose, inside any document and for all settings.  A `dedent`
undoes an `indent` around it, an `align` adds its columns to those of another one, changes
nothing with no columns, and changes places with an `indent`, a second `root` or `group`
around a document changes nothing, and an `indent` undoes a `dedent` around it where the
indentation has a level to take away. -/
theorem render_indentation (settings : Settings) (outside : Doc.Surroundings) :
    (∀ doc : Doc,
      render settings (outside.fill (.indent (.dedent doc))) =
        render settings (outside.fill doc)) ∧
    (∀ (columns columns' : Nat) (doc : Doc),
      render settings (outside.fill (.align columns (.align columns' doc))) =
        render settings (outside.fill (.align (columns + columns') doc))) ∧
    (∀ doc : Doc,
      render settings (outside.fill (.align 0 doc)) = render settings (outside.fill doc)) ∧
    (∀ (columns : Nat) (doc : Doc),
      render settings (outside.fill (.align columns (.indent doc))) =
        render settings (outside.fill (.indent (.align columns doc)))) ∧
    (∀ doc : Doc,
      render settings (outside.fill (.root (.root doc))) =
        render settings (outside.fill (.root doc))) ∧
    (∀ doc : Doc,
      render settings (outside.fill (.group (.group doc))) =
        render settings (outside.fill (.group doc))) ∧
    (∀ doc : Doc, settings.indentSize ≤ outside.indentAt settings.indentSize 0 →
      render settings (outside.fill (.dedent (.indent doc))) =
        render settings (outside.fill doc)) := by
  refine ⟨?_, ?_, ?_, ?_, ?_, ?_, ?_⟩
  · intro doc
    exact (Doc.Interchangeable.indent_dedent doc).render_fill settings outside
  · intro columns columns' doc
    exact (Doc.Interchangeable.align_align columns columns' doc).render_fill settings outside
  · intro doc
    exact (Doc.Interchangeable.align_zero doc).render_fill settings outside
  · intro columns doc
    exact (Doc.Interchangeable.align_indent columns doc).render_fill settings outside
  · intro doc
    exact (Doc.Interchangeable.root_root doc).render_fill settings outside
  · intro doc
    exact (Doc.Interchangeable.group_group doc).render_fill settings outside
  · intro doc hlevel
    exact (Doc.InterchangeableAt.dedent_indent_of_le hlevel doc).render_fill

/-- Below a level of indentation the two cancel.  At the left edge they do not. -/
theorem render_indentation_level :
    let doc : Doc := .concat [.hardLine, .text "bar"]
    let outside : Doc.Surroundings := .indent (.concat [.text "foo"] .hole [])
    outside.indentAt 2 0 = 2 ∧
      render {} (outside.fill (.dedent (.indent doc))) = render {} (outside.fill doc) ∧
      render {} (outside.fill doc) = "foo\n  bar" ∧
      render {} (.dedent (.indent doc)) ≠ render {} doc := by
  intro doc outside
  have hlevel : outside.indentAt 2 0 = 2 := by decide
  obtain ⟨-, -, -, -, -, -, hcancel⟩ := render_indentation {} outside
  refine ⟨hlevel, hcancel doc (Nat.le_of_eq hlevel.symm), ?_, ?_⟩
  · decide +kernel
  · decide +kernel

end Layout

end TreeFormat
