import TreeFormat.Proofs.Layout.Splits

/-!
# Documents that may stand for each other

Two documents are interchangeable if a layout cannot tell them apart: both or neither of
them take part in it, the fitting test finds the same in both, and they are laid out alike
in front of everything.  Then one may stand for the other inside any document
(`Doc.Interchangeable.render_fill`).  Some documents are interchangeable only at some
indentations; they may stand for each other where the indentation is one of these
(`Doc.InterchangeableAt.render_fill`).

A document contains another one if it is interchangeable with some surroundings of it
(`Doc.Contains`).

How a row of documents is put together does not matter in this sense.  Concatenations
inside a concatenation may be dissolved, and parts without text may be left out.  So
documents are a monoid up to rendering (`Layout.render_monoid`), although `Doc.append`
takes apart only the concatenation on its left and keeps empty parts.
-/

namespace TreeFormat

open Layout

/-! ## Documents with a part left out -/

/-- What stands around a part of a document. -/
inductive Doc.Surroundings where
  | hole
  | concat (front : List Doc) (inner : Surroundings) (back : List Doc)
  | group (inner : Surroundings)
  | indent (inner : Surroundings)
  | dedent (inner : Surroundings)
  | align (columns : Nat) (inner : Surroundings)
  | root (inner : Surroundings)

/-- The document with a part put in. -/
def Doc.Surroundings.fill : Doc.Surroundings → Doc → Doc
  | hole, part => part
  | concat front inner back, part => .concat (front ++ inner.fill part :: back)
  | group inner, part => .group (inner.fill part)
  | indent inner, part => .indent (inner.fill part)
  | dedent inner, part => .dedent (inner.fill part)
  | align columns inner, part => .align columns (inner.fill part)
  | root inner, part => .root (inner.fill part)

/-- The absolute indentation of the part, from that of the document. -/
def Doc.Surroundings.indentAt (size : Nat) : Doc.Surroundings → Nat → Nat
  | hole, own => own
  | concat _ inner _, own => inner.indentAt size own
  | group inner, own => inner.indentAt size own
  | indent inner, own => inner.indentAt size (own + size)
  | dedent inner, own => inner.indentAt size (own - size)
  | align columns inner, own => inner.indentAt size (own + columns)
  | root inner, own => inner.indentAt size own

namespace Doc.Surroundings

/-- The leaves in front of the part. -/
def leavesAhead : Surroundings → List Leaf
  | hole => []
  | concat front inner _ => allLeaves front ++ inner.leavesAhead
  | group inner | indent inner | dedent inner | align _ inner | root inner => inner.leavesAhead

/-- The leaves behind the part. -/
def leavesBehind : Surroundings → List Leaf
  | hole => []
  | concat _ inner back => inner.leavesBehind ++ allLeaves back
  | group inner | indent inner | dedent inner | align _ inner | root inner => inner.leavesBehind

theorem leaves_fill (outside : Surroundings) (part : Doc) :
    (outside.fill part).leaves = outside.leavesAhead ++ part.leaves ++ outside.leavesBehind := by
  induction outside with
  | hole => simp [fill, leavesAhead, leavesBehind]
  | concat front inner back ih =>
      simp [fill, leavesAhead, leavesBehind, ih, allLeaves_eq_flatMap]
  | group inner ih => exact ih
  | indent inner ih => exact ih
  | dedent inner ih => exact ih
  | align columns inner ih => exact ih
  | root inner ih => exact ih

/-- Surroundings of a part that are put around the part of others. -/
def comp : Surroundings → Surroundings → Surroundings
  | hole, outside => outside
  | concat front inner back, outside => concat front (inner.comp outside) back
  | group inner, outside => group (inner.comp outside)
  | indent inner, outside => indent (inner.comp outside)
  | dedent inner, outside => dedent (inner.comp outside)
  | align columns inner, outside => align columns (inner.comp outside)
  | root inner, outside => root (inner.comp outside)

theorem fill_comp (outer inner : Surroundings) (part : Doc) :
    (outer.comp inner).fill part = outer.fill (inner.fill part) := by
  induction outer with
  | hole => rfl
  | concat front outer back ih => rw [comp, fill, fill, ih]
  | group outer ih => rw [comp, fill, fill, ih]
  | indent outer ih => rw [comp, fill, fill, ih]
  | dedent outer ih => rw [comp, fill, fill, ih]
  | align columns outer ih => rw [comp, fill, fill, ih]
  | root outer ih => rw [comp, fill, fill, ih]

end Doc.Surroundings

/-- A document without text or line breaks takes up no room. -/
theorem Layout.measure_of_isTextless
    {doc : Doc} (hdoc : doc.isTextless = true) (width : Nat) (mode : Mode) (column : Nat) :
    Absolute.measure width mode column doc = .open column := by
  have hvanishes : toRelative 0 0 0 doc = .nil := (toRelative_eq_nil_iff doc 0 0).2 hdoc
  rw [← measure_toRelative doc 0 0 mode column, hvanishes, measure]

namespace Doc

/-- The layout cannot tell two documents apart at an indentation. -/
structure InterchangeableAt (size own : Nat) (first second : Doc) : Prop where
  textless : first.isTextless = second.isTextless
  measure (width : Nat) (mode : Mode) (column : Nat) :
    Absolute.measure width mode column first = Absolute.measure width mode column second
  lay (width base : Nat) (mode : Mode) (context : Context) (column : Nat) :
    first.lay width size own base mode context column =
      second.lay width size own base mode context column

/-- The layout cannot tell two documents apart. -/
structure Interchangeable (first second : Doc) : Prop where
  textless : first.isTextless = second.isTextless
  measure (width : Nat) (mode : Mode) (column : Nat) :
    Absolute.measure width mode column first = Absolute.measure width mode column second
  lay (width size own base : Nat) (mode : Mode) (context : Context) (column : Nat) :
    first.lay width size own base mode context column =
      second.lay width size own base mode context column

theorem interchangeable_iff
    {first second : Doc} :
    Interchangeable first second ↔ ∀ size own, InterchangeableAt size own first second := by
  constructor
  · intro h size own
    exact ⟨h.textless, h.measure, fun width => h.lay width size own⟩
  · intro h
    exact ⟨(h 0 0).textless, (h 0 0).measure, fun width size own => (h size own).lay width⟩

/-! ## Parts of larger documents -/

namespace InterchangeableAt

variable {size own : Nat} {first second third : Doc}

theorem refl (doc : Doc) : InterchangeableAt size own doc doc where
  textless := rfl
  measure _ _ _ := rfl
  lay _ _ _ _ _ := rfl

theorem trans
    (h : InterchangeableAt size own first second) (h' : InterchangeableAt size own second third) :
    InterchangeableAt size own first third where
  textless := h.textless.trans h'.textless
  measure width mode column := (h.measure width mode column).trans (h'.measure width mode column)
  lay width base mode context column :=
    (h.lay width base mode context column).trans (h'.lay width base mode context column)

theorem group (h : InterchangeableAt size own first second) :
    InterchangeableAt size own (.group first) (.group second) where
  textless := h.textless
  measure width mode column := h.measure width mode column
  lay width base mode context column := by
    rw [Doc.lay, Doc.lay, h.measure width .flat column]
    exact h.lay width base _ context column

theorem indent (h : InterchangeableAt size (own + size) first second) :
    InterchangeableAt size own (.indent first) (.indent second) where
  textless := h.textless
  measure width mode column := h.measure width mode column
  lay width base mode context column := h.lay width base mode context column

theorem dedent (h : InterchangeableAt size (own - size) first second) :
    InterchangeableAt size own (.dedent first) (.dedent second) where
  textless := h.textless
  measure width mode column := h.measure width mode column
  lay width base mode context column := h.lay width base mode context column

theorem align (columns : Nat) (h : InterchangeableAt size (own + columns) first second) :
    InterchangeableAt size own (.align columns first) (.align columns second) where
  textless := h.textless
  measure width mode column := h.measure width mode column
  lay width base mode context column := h.lay width base mode context column

theorem root (h : InterchangeableAt size own first second) :
    InterchangeableAt size own (.root first) (.root second) where
  textless := h.textless
  measure width mode column := h.measure width mode column
  lay width _ mode context column := h.lay width own mode context column

/-- A row may change in its first part and in the rest of it.  What is behind the first
part matters to it only for whether there is text and where the line fits. -/
theorem cons
    {part part' : Doc} {parts parts' : List Doc}
    (hpart : InterchangeableAt size own part part')
    (hparts : InterchangeableAt size own (.concat parts) (.concat parts')) :
    InterchangeableAt size own (.concat (part :: parts)) (.concat (part' :: parts')) where
  textless := by
    have hrest : areTextless parts = areTextless parts' := hparts.textless
    simp only [isTextless, areTextless, hpart.textless, hrest]
  measure width mode column := by
    simp only [Absolute.measure, Absolute.measureAll, hpart.measure width mode column]
    cases Absolute.measure width mode column part' with
    | «open» behind => exact hparts.measure width mode behind
    | settled fits => rfl
  lay width base mode context column := by
    have hcontext :
        context.inFrontOfAll width own parts = context.inFrontOfAll width own parts' := by
      have htextless : areTextless parts = areTextless parts' := hparts.textless
      have hmeasure : ∀ column, Absolute.measureAll width .broken column parts =
          Absolute.measureAll width .broken column parts' := hparts.measure width .broken
      simp only [Context.inFrontOfAll, htextless, hmeasure]
    have hrest : ∀ column, layAll width size parts own base mode context column =
        layAll width size parts' own base mode context column :=
      hparts.lay width base mode context
    simp only [Doc.lay, Doc.layAll, hcontext, hrest,
      hpart.lay width base mode _ column]

/-- The last parts of a row may change together. -/
theorem behind
    (front : List Doc) {parts parts' : List Doc}
    (hparts : InterchangeableAt size own (.concat parts) (.concat parts')) :
    InterchangeableAt size own (.concat (front ++ parts)) (.concat (front ++ parts')) := by
  induction front with
  | nil => exact hparts
  | cons part front ih => exact cons (refl part) ih

/-- Parts that are interchangeable at their indentation stay so inside any document. -/
theorem fill
    (outside : Surroundings) (h : InterchangeableAt size (outside.indentAt size own) first second) :
    InterchangeableAt size own (outside.fill first) (outside.fill second) := by
  induction outside generalizing own with
  | hole => exact h
  | concat front inner back ih => exact behind front (cons (ih h) (refl _))
  | group inner ih => exact (ih h).group
  | indent inner ih => exact (ih h).indent
  | dedent inner ih => exact (ih h).dedent
  | align columns inner ih => exact (ih h).align columns
  | root inner ih => exact (ih h).root

theorem pieces_eq
    {settings : Settings} (h : InterchangeableAt settings.indentSize 0 first second) :
    pieces settings first = pieces settings second := by
  rw [pieces_eq_absolute, pieces_eq_absolute, Absolute.pieces_eq_lay, Absolute.pieces_eq_lay, h.lay]

/-- Such documents are rendered to the same text there. -/
theorem render_fill
    {settings : Settings} {outside : Surroundings}
    (h : InterchangeableAt settings.indentSize (outside.indentAt settings.indentSize 0)
      first second) :
    render settings (outside.fill first) = render settings (outside.fill second) := by
  rw [render, render, (fill outside h).pieces_eq]

end InterchangeableAt

namespace Interchangeable

variable {first second third : Doc}

theorem refl (doc : Doc) : Interchangeable doc doc where
  textless := rfl
  measure _ _ _ := rfl
  lay _ _ _ _ _ _ _ := rfl

theorem symm (h : Interchangeable first second) : Interchangeable second first where
  textless := h.textless.symm
  measure width mode column := (h.measure width mode column).symm
  lay width size own base mode context column :=
    (h.lay width size own base mode context column).symm

theorem trans
    (h : Interchangeable first second) (h' : Interchangeable second third) :
    Interchangeable first third := by
  rw [interchangeable_iff] at *
  intro size own
  exact (h size own).trans (h' size own)

theorem cons
    {part part' : Doc} {parts parts' : List Doc}
    (hpart : Interchangeable part part')
    (hparts : Interchangeable (.concat parts) (.concat parts')) :
    Interchangeable (.concat (part :: parts)) (.concat (part' :: parts')) := by
  rw [interchangeable_iff] at *
  intro size own
  exact (hpart size own).cons (hparts size own)

theorem behind
    (front : List Doc) {parts parts' : List Doc}
    (hparts : Interchangeable (.concat parts) (.concat parts')) :
    Interchangeable (.concat (front ++ parts)) (.concat (front ++ parts')) := by
  rw [interchangeable_iff] at *
  intro size own
  exact .behind front (hparts size own)

/-- Interchangeable parts stay so inside any document. -/
theorem fill (h : Interchangeable first second) (outside : Surroundings) :
    Interchangeable (outside.fill first) (outside.fill second) := by
  rw [interchangeable_iff] at *
  intro size own
  exact .fill outside (h size _)

theorem pieces_eq
    (h : Interchangeable first second) (settings : Settings) :
    pieces settings first = pieces settings second :=
  (interchangeable_iff.1 h _ _).pieces_eq

/-- Interchangeable documents are rendered to the same text inside any document. -/
theorem render_fill
    (h : Interchangeable first second) (settings : Settings) (outside : Surroundings) :
    render settings (outside.fill first) = render settings (outside.fill second) :=
  (interchangeable_iff.1 h _ _).render_fill

/-! ## Rows of documents -/

/-- A concatenation at the front of a row may be dissolved. -/
theorem flatten (inner parts : List Doc) :
    Interchangeable (.concat (.concat inner :: parts)) (.concat (inner ++ parts)) where
  textless := by
    simp only [isTextless, areTextless, areTextless_append]
  measure width mode column := (measureAll_append mode column inner parts).symm
  lay width size own base mode context column := by
    simp only [Doc.lay, Doc.layAll, layAll_append]

/-- A part without text may be left out at the front of a row. -/
theorem skip {part : Doc} (hpart : part.isTextless = true) (parts : List Doc) :
    Interchangeable (.concat (part :: parts)) (.concat parts) where
  textless := by
    simp only [isTextless, areTextless, hpart, Bool.true_and]
  measure width mode column := by
    simp only [Absolute.measure, Absolute.measureAll, measure_of_isTextless hpart]
  lay width size own base mode context column := by
    simp only [Doc.lay, Doc.layAll, Absolute.lay_of_isTextless hpart, List.nil_append]

/-- A row of one part is as good as the part. -/
theorem single (doc : Doc) : Interchangeable (.concat [doc]) doc where
  textless := by
    simp only [isTextless, areTextless, Bool.and_true]
  measure width mode column := by
    simp only [Absolute.measure, Absolute.measureAll]
    cases Absolute.measure width mode column doc <;> rfl
  lay width size own base mode context column := by
    have hcontext : context.inFrontOfAll width own [] = context := rfl
    simp only [Doc.lay, Doc.layAll, hcontext, List.append_nil]

/-! ## The monoid of documents -/

/-- Appending comes to the same as a row of two. -/
theorem append (first second : Doc) :
    Interchangeable (first.append second) (.concat [first, second]) := by
  cases first with
  | nil => exact (single second).symm.trans (skip rfl [second]).symm
  | concat parts => exact (flatten parts [second]).symm
  | _ => exact refl _

theorem append_assoc (first second third : Doc) :
    Interchangeable ((first.append second).append third)
      (first.append (second.append third)) := by
  have hleft : Interchangeable ((first.append second).append third)
      (.concat [first, second, third]) :=
    ((append _ third).trans (cons (append first second) (refl _))).trans
      (flatten [first, second] [third])
  have hright : Interchangeable (first.append (second.append third))
      (.concat [first, second, third]) :=
    ((append first _).trans (behind [first] (cons (append second third) (refl _)))).trans
      (behind [first] (single _))
  exact hleft.trans hright.symm

theorem append_textless (doc : Doc) {part : Doc} (hpart : part.isTextless = true) :
    Interchangeable (doc.append part) doc :=
  ((append doc part).trans (behind [doc] (skip hpart []))).trans (single doc)

theorem textless_append {part : Doc} (hpart : part.isTextless = true) (doc : Doc) :
    Interchangeable (part.append doc) doc :=
  ((append part doc).trans (skip hpart [doc])).trans (single doc)

/-- Two joined rows with the separator between them are one joined row. -/
theorem join_append (separator first : Doc) (front : List Doc) (second : Doc) (back : List Doc) :
    Interchangeable (join separator ((first :: front) ++ second :: back))
      (.concat [join separator (first :: front), separator, join separator (second :: back)]) := by
  let left := (first :: front).intersperse separator
  let right := (second :: back).intersperse separator
  have hsplit : ((first :: front) ++ second :: back).intersperse separator =
      left ++ separator :: right :=
    intersperse_append (by simp) (by simp)
  have hright : Interchangeable (.concat (left ++ [separator, .concat right]))
      (.concat (left ++ separator :: right)) :=
    behind left (behind [separator] (single _))
  rw [join, hsplit]
  exact ((flatten left [separator, .concat right]).trans hright).symm

end Interchangeable

/-! ## Documents that contain others -/

/-- A document comes to the same as another one in some surroundings, leaf by leaf and in
the layout. -/
def Contains (doc part : Doc) : Prop :=
  ∃ outside : Surroundings,
    Interchangeable doc (outside.fill part) ∧ doc.leaves = (outside.fill part).leaves

namespace Contains

variable {doc other part inner : Doc}

theorem refl (doc : Doc) : Contains doc doc :=
  ⟨.hole, .refl doc, rfl⟩

/-- What is in a part of a document is in the document. -/
theorem inside (outside : Surroundings) (h : Contains inner part) :
    Contains (outside.fill inner) part := by
  obtain ⟨around, halike, hleaves⟩ := h
  refine ⟨outside.comp around, ?_, ?_⟩
  · rw [Surroundings.fill_comp]
    exact halike.fill outside
  · rw [Surroundings.fill_comp, Surroundings.leaves_fill, Surroundings.leaves_fill, hleaves]

theorem of_interchangeable
    (halike : Interchangeable doc other) (hleaves : doc.leaves = other.leaves)
    (h : Contains other part) : Contains doc part := by
  obtain ⟨around, halike', hleaves'⟩ := h
  exact ⟨around, halike.trans halike', hleaves.trans hleaves'⟩

theorem trans (h : Contains doc inner) (h' : Contains inner part) : Contains doc part := by
  obtain ⟨outside, halike, hleaves⟩ := h
  exact .of_interchangeable halike hleaves (h'.inside outside)

theorem of_mem {parts : List Doc} (hinner : inner ∈ parts) (h : Contains inner part) :
    Contains (.concat parts) part := by
  obtain ⟨front, back, rfl⟩ := List.append_of_mem hinner
  exact h.inside (.concat front .hole back)

theorem snoc {parts : List Doc} (last : Doc) (h : Contains (.concat parts) part) :
    Contains (.concat (parts ++ [last])) part :=
  of_interchangeable (.symm (.flatten parts [last])) (by simp) (of_mem List.mem_cons_self h)

theorem append_left (second : Doc) (h : Contains doc part) :
    Contains (doc ++ second) part :=
  of_interchangeable (.append doc second) (by simp) (of_mem List.mem_cons_self h)

theorem append_right (first : Doc) (h : Contains doc part) :
    Contains (first ++ doc) part :=
  of_interchangeable (.append first doc) (by simp)
    (of_mem (List.mem_cons_of_mem _ List.mem_cons_self) h)

theorem leaves_isInfix (h : Contains doc part) : part.leaves <:+: doc.leaves := by
  obtain ⟨outside, -, hleaves⟩ := h
  rw [hleaves, Surroundings.leaves_fill]
  exact ⟨outside.leavesAhead, outside.leavesBehind, rfl⟩

end Contains

end Doc

/-- Documents are a monoid up to rendering, inside any document and for all settings.
Appending is the same as a row of two, it is associative, the empty document and the empty
text are neutral on both sides, and joining two rows is joining each of them with a
separator in between. -/
theorem Layout.render_monoid (settings : Settings) (outside : Doc.Surroundings) :
    (∀ first second : Doc,
      render settings (outside.fill (first.append second)) =
        render settings (outside.fill (.concat [first, second]))) ∧
    (∀ first second third : Doc,
      render settings (outside.fill ((first.append second).append third)) =
        render settings (outside.fill (first.append (second.append third)))) ∧
    (∀ doc : Doc,
      render settings (outside.fill (doc.append .nil)) = render settings (outside.fill doc) ∧
      render settings (outside.fill (Doc.nil.append doc)) = render settings (outside.fill doc) ∧
      render settings (outside.fill (doc.append (.text ""))) =
        render settings (outside.fill doc) ∧
      render settings (outside.fill ((Doc.text "").append doc)) =
        render settings (outside.fill doc)) ∧
    (∀ (separator first : Doc) (front : List Doc) (second : Doc) (back : List Doc),
      render settings (outside.fill (.join separator ((first :: front) ++ second :: back))) =
        render settings (outside.fill (.concat
          [.join separator (first :: front), separator, .join separator (second :: back)]))) := by
  have hnil : Doc.isTextless .nil = true := rfl
  have hempty : Doc.isTextless (.text "") = true := rfl
  refine ⟨?_, ?_, ?_, ?_⟩
  · intro first second
    exact (Doc.Interchangeable.append first second).render_fill settings outside
  · intro first second third
    exact (Doc.Interchangeable.append_assoc first second third).render_fill settings outside
  · intro doc
    exact ⟨(Doc.Interchangeable.append_textless doc hnil).render_fill settings outside,
      (Doc.Interchangeable.textless_append hnil doc).render_fill settings outside,
      (Doc.Interchangeable.append_textless doc hempty).render_fill settings outside,
      (Doc.Interchangeable.textless_append hempty doc).render_fill settings outside⟩
  · intro separator first front second back
    exact (Doc.Interchangeable.join_append separator first front second back).render_fill
      settings outside

end TreeFormat
