import Mathlib.Data.List.Basic
import TreeFormat.Layout.Absolute

/-!
# Layout by recursion on the document

The layout of a part of a document depends on what comes after it in two ways
only: a line break takes the indentation of the next command, and a group asks
whether its line fits up to the next possible break.  Given these two as a
`Context`, `Relative.lay` and `Doc.lay` lay a part out by recursion on it, in the
relative and in the absolute form.

The two forms of a document look the same to the fitting test
(`measure_toRelative`) and are laid out alike (`lay_toRelative`).
-/

namespace TreeFormat

namespace Layout

/-! ## Contexts -/

/-- What the layout of a part depends on besides the part: the indentation of the
command behind it, if there is one, and whether what follows the part fits from
a column. -/
structure Context where
  next : Option Nat
  fits : Nat → Bool

namespace Context

/-- Whether a line fits that has been looked at up to the end of a part. -/
def fitsBehind (context : Context) : Fit → Bool
  | .open column => context.fits column
  | .settled fits => fits

/-- The mode of a group whose content was looked at in flat mode. -/
def groupMode (context : Context) (mode : Mode) (content : Fit) : Mode :=
  match mode with
  | .flat => .flat
  | .broken => if context.fitsBehind content then .flat else .broken

/-- The context of a part in front of a command. -/
def inFront (width indent : Nat) (doc : Relative) (context : Context) : Context where
  next := some indent
  fits column := context.fitsBehind (measure width .broken column doc)

/-- The context of a part in front of the parts after it in a concatenation. -/
def inFrontOfAll (width indent : Nat) (parts : List Doc) (context : Context) : Context where
  next := if Doc.areTextless parts then context.next else some indent
  fits column := context.fitsBehind (Absolute.measureAll width .broken column parts)

/-- The context at the end of a document. -/
def atEnd : Context where
  next := none
  fits _ := true

end Context

/-! ## Laying out -/

/-- The column behind a line break, and the break. -/
def breakAt (indent : Nat) : Nat × List Piece :=
  (indent, [.newline indent])

/-- The column behind a part with relative indentation and its pieces. -/
def Relative.lay (width : Nat) :
    Relative → Nat → Mode → Context → Nat → Nat × List Piece
  | .nil, _, _, _, column => (column, [])
  | .anchor, _, _, _, column => (column, [])
  | .text content, _, _, _, column => (column + Text.stringWidth content, [.text content])
  | .append first second, indent, mode, context, column =>
    let laid := first.lay width indent mode (context.inFront width indent second) column
    let rest := second.lay width indent mode context laid.1
    (rest.1, laid.2 ++ rest.2)
  | .line, indent, mode, context, column =>
    match mode with
    | .flat => (column + 1, [.space])
    | .broken => breakAt (context.next.getD indent)
  | .hardLine, indent, _, context, _ => breakAt (context.next.getD indent)
  | .group inner, indent, mode, context, column =>
    inner.lay width indent (context.groupMode mode (measure width .flat column inner)) context
      column
  | .nest offset inner, indent, mode, context, column =>
    inner.lay width (shift indent offset) mode context column

end Layout

open Layout

mutual

/-- The column behind a part and its pieces, at an indentation and a root column. -/
def Doc.lay (width size : Nat) :
    Doc → Nat → Nat → Mode → Context → Nat → Nat × List Piece
  | .nil, _, _, _, _, column => (column, [])
  | .text content, _, _, _, _, column =>
    if content.isEmpty then (column, [])
    else (column + Text.stringWidth content, [.text content])
  | .concat parts, own, base, mode, context, column =>
    Doc.layAll width size parts own base mode context column
  | .line, own, _, mode, context, column =>
    match mode with
    | .flat => (column + 1, [.space])
    | .broken => breakAt (context.next.getD own)
  | .hardLine, own, _, _, context, _ => breakAt (context.next.getD own)
  | .literalLine, _, base, _, _, _ => breakAt base
  | .group inner, own, base, mode, context, column =>
    Doc.lay width size inner own base
      (context.groupMode mode (Absolute.measure width .flat column inner)) context column
  | .indent inner, own, base, mode, context, column =>
    Doc.lay width size inner (own + size) base mode context column
  | .dedent inner, own, base, mode, context, column =>
    Doc.lay width size inner (own - size) base mode context column
  | .align columns inner, own, base, mode, context, column =>
    Doc.lay width size inner (own + columns) base mode context column
  | .root inner, own, _, mode, context, column =>
    Doc.lay width size inner own own mode context column

/-- The column behind several parts and their pieces. -/
def Doc.layAll (width size : Nat) :
    List Doc → Nat → Nat → Mode → Context → Nat → Nat × List Piece
  | [], _, _, _, _, column => (column, [])
  | part :: parts, own, base, mode, context, column =>
    let laid := Doc.lay width size part own base mode
      (context.inFrontOfAll width own parts) column
    let rest := Doc.layAll width size parts own base mode context laid.1
    (rest.1, laid.2 ++ rest.2)

end

namespace Layout

/-! ## The two forms of a document look alike -/

section Lowering

variable {width size : Nat}

theorem measure_andThen
    (mode : Mode) (column : Nat) (first second : Relative) :
    measure width mode column (first.andThen second) =
      match measure width mode column first with
      | .open column => measure width mode column second
      | .settled fits => .settled fits := by
  unfold Relative.andThen
  split
  · rfl
  · cases measure width mode column first <;> rfl
  · rfl

theorem measure_nested
    (mode : Mode) (column : Nat) (offset : Int) (inner : Relative) :
    measure width mode column (inner.nested offset) = measure width mode column inner := by
  unfold Relative.nested
  split
  · rfl
  · split
    · rfl
    · rfl

theorem measure_grouped
    (mode : Mode) (column : Nat) (inner : Relative) :
    measure width mode column inner.grouped = measure width mode column inner := by
  unfold Relative.grouped
  split <;> rfl

mutual

/-- A document and its relative form look the same to the fitting test. -/
theorem measure_toRelative :
    ∀ (doc : Doc) (own base : Nat) (mode : Mode) (column : Nat),
      measure width mode column (toRelative size own base doc) =
        Absolute.measure width mode column doc
  | .nil, _, _, _, _ => rfl
  | .text content, _, _, _, _ => by
      rw [toRelative, Relative.ofText, Absolute.measure]
      split <;> rfl
  | .concat parts, own, base, mode, column => by
      rw [toRelative, measure_toRelatives, Absolute.measure]
      rfl
  | .line, _, _, _, _ => rfl
  | .hardLine, _, _, _, _ => by rw [toRelative, measure, Absolute.measure]
  | .literalLine, own, base, mode, column => by
      rw [toRelative, Relative.literalLine, measure_nested, Absolute.measure]
      rfl
  | .group inner, own, base, mode, column => by
      rw [toRelative, measure_grouped, measure_toRelative, Absolute.measure]
  | .indent inner, own, base, mode, column => by
      rw [toRelative, measure_nested, measure_toRelative, Absolute.measure]
  | .dedent inner, own, base, mode, column => by
      rw [toRelative, measure_nested, measure_toRelative, Absolute.measure]
  | .align columns inner, own, base, mode, column => by
      rw [toRelative, measure_nested, measure_toRelative, Absolute.measure]
  | .root inner, own, base, mode, column => by
      rw [toRelative, measure_toRelative, Absolute.measure]

theorem measure_toRelatives :
    ∀ (parts : List Doc) (own base : Nat) (first : Relative) (mode : Mode) (column : Nat),
      measure width mode column (toRelatives size own base first parts) =
        match measure width mode column first with
        | .open column => Absolute.measureAll width mode column parts
        | .settled fits => .settled fits
  | [], own, base, first, mode, column => by
      rw [toRelatives]
      cases measure width mode column first <;> rfl
  | part :: parts, own, base, first, mode, column => by
      rw [toRelatives, measure_toRelatives, measure_andThen]
      cases measure width mode column first with
      | settled fits => rfl
      | «open» column =>
          cases hpart : Absolute.measure width mode column part <;>
            simp only [measure_toRelative part, Absolute.measureAll, hpart]

end

/-! ## The two forms of a document are laid out alike -/

theorem andThen_eq_nil_iff
    {first second : Relative} :
    first.andThen second = .nil ↔ first = .nil ∧ second = .nil := by
  unfold Relative.andThen
  split <;> simp_all

theorem nested_eq_nil_iff
    {offset : Int} {inner : Relative} : inner.nested offset = .nil ↔ inner = .nil := by
  unfold Relative.nested
  split
  · simp
  · split <;> simp_all

theorem grouped_eq_nil_iff
    {inner : Relative} : inner.grouped = .nil ↔ inner = .nil := by
  unfold Relative.grouped
  split <;> simp_all

theorem nested_of_ne_nil
    {inner : Relative} (hinner : inner ≠ .nil) (offset : Int) :
    inner.nested offset = if offset = 0 then inner else .nest offset inner := by
  cases inner <;> first | rfl | contradiction

theorem grouped_of_ne_nil
    {inner : Relative} (hinner : inner ≠ .nil) : inner.grouped = .group inner := by
  cases inner <;> first | rfl | contradiction

theorem andThen_of_ne_nil
    {first second : Relative} (hfirst : first ≠ .nil) (hsecond : second ≠ .nil) :
    first.andThen second = .append first second := by
  cases first <;> cases second <;> first | rfl | contradiction

mutual

/-- The documents whose relative form vanishes are those without any text or
line break. -/
theorem toRelative_eq_nil_iff :
    ∀ (doc : Doc) (own base : Nat),
      toRelative size own base doc = .nil ↔ doc.isTextless = true
  | .nil, _, _ => by simp [toRelative, Doc.isTextless]
  | .text content, _, _ => by simp [toRelative, Relative.ofText, Doc.isTextless]
  | .concat parts, own, base => by
      rw [toRelative, toRelatives_eq_nil_iff, Doc.isTextless]
      simp
  | .line, _, _ => by simp [toRelative, Doc.isTextless]
  | .hardLine, _, _ => by simp [toRelative, Doc.isTextless]
  | .literalLine, own, base => by
      rw [toRelative, Relative.literalLine, nested_eq_nil_iff]
      simp [Doc.isTextless]
  | .group inner, own, base => by
      rw [toRelative, grouped_eq_nil_iff, toRelative_eq_nil_iff, Doc.isTextless]
  | .indent inner, own, base => by
      rw [toRelative, nested_eq_nil_iff, toRelative_eq_nil_iff, Doc.isTextless]
  | .dedent inner, own, base => by
      rw [toRelative, nested_eq_nil_iff, toRelative_eq_nil_iff, Doc.isTextless]
  | .align columns inner, own, base => by
      rw [toRelative, nested_eq_nil_iff, toRelative_eq_nil_iff, Doc.isTextless]
  | .root inner, own, base => by
      rw [toRelative, toRelative_eq_nil_iff, Doc.isTextless]

theorem toRelatives_eq_nil_iff :
    ∀ (parts : List Doc) (own base : Nat) (first : Relative),
      toRelatives size own base first parts = .nil ↔
        first = .nil ∧ Doc.areTextless parts = true
  | [], own, base, first => by simp [toRelatives, Doc.areTextless]
  | part :: parts, own, base, first => by
      rw [toRelatives, toRelatives_eq_nil_iff, andThen_eq_nil_iff, toRelative_eq_nil_iff,
        Doc.areTextless, Bool.and_eq_true, and_assoc]

end

theorem lay_andThen
    (first second : Relative) (own : Nat) (mode : Mode) (context : Context) (column : Nat) :
    (first.andThen second).lay width own mode context column =
      let between : Context := if second = .nil then context else context.inFront width own second
      let laid := first.lay width own mode between column
      let rest := second.lay width own mode context laid.1
      (rest.1, laid.2 ++ rest.2) := by
  unfold Relative.andThen
  split
  · simp [Relative.lay]
  · simp [Relative.lay]
  · next hsecond => simp only [Relative.lay, if_neg hsecond]

theorem lay_grouped
    (inner : Relative) (own : Nat) (mode : Mode) (context : Context) (column : Nat) :
    inner.grouped.lay width own mode context column =
      inner.lay width own (context.groupMode mode (measure width .flat column inner)) context
        column := by
  unfold Relative.grouped
  split
  · rfl
  · rfl

theorem lay_nested
    (own own' : Nat) {offset : Int} (hown : own + offset = own')
    (inner : Relative) (mode : Mode) (context : Context) (column : Nat) :
    (inner.nested offset).lay width own mode context column =
      inner.lay width own' mode context column := by
  unfold Relative.nested
  split
  · rfl
  · split
    · next hzero =>
        have hsame : own' = own := by omega
        rw [hsame]
    · have hshift : shift own offset = own' := by
        rw [shift, hown, Int.toNat_natCast]
      rw [Relative.lay, hshift]

/-- The context of a part in front of others is built up from the last one, and a
part that vanishes adds nothing to it. -/
theorem inFrontOfAll_cons
    (size own base : Nat) (part : Doc) (parts : List Doc) (context : Context) :
    context.inFrontOfAll width own (part :: parts) =
      let behind := context.inFrontOfAll width own parts
      if toRelative size own base part = .nil then behind
      else behind.inFront width own (toRelative size own base part) := by
  by_cases hnil : toRelative size own base part = .nil
  · have htextless : part.isTextless = true := (toRelative_eq_nil_iff part own base).1 hnil
    have hmeasure : ∀ column, Absolute.measure width .broken column part = .open column := by
      intro column
      rw [← measure_toRelative part own base, hnil, measure]
    simp [hnil, Context.inFrontOfAll, Doc.areTextless, htextless, Absolute.measureAll, hmeasure]
  · have htext : part.isTextless = false := by
      rw [← Bool.not_eq_true, ← toRelative_eq_nil_iff part own base]
      exact hnil
    simp only [if_neg hnil, Context.inFrontOfAll, Context.inFront, Doc.areTextless, htext,
      Absolute.measureAll, measure_toRelative, Context.mk.injEq]
    refine ⟨rfl, ?_⟩
    funext column
    cases Absolute.measure width .broken column part <;> rfl

mutual

theorem lay_toRelative :
    ∀ (doc : Doc) (own base : Nat) (mode : Mode) (context : Context) (column : Nat),
      (toRelative size own base doc).lay width own mode context column =
        doc.lay width size own base mode context column
  | .nil, _, _, _, _, _ => rfl
  | .text content, _, _, _, _, _ => by
      rw [toRelative, Relative.ofText, Doc.lay]
      split <;> rfl
  | .concat parts, own, base, mode, context, column => by
      rw [toRelative, lay_toRelatives, Doc.lay]
      simp [Relative.lay]
  | .line, _, _, _, _, _ => rfl
  | .hardLine, _, _, _, _, _ => rfl
  | .literalLine, own, base, mode, context, column => by
      rw [toRelative, Relative.literalLine, lay_nested own base (by omega)]
      rfl
  | .group inner, own, base, mode, context, column => by
      rw [toRelative, lay_grouped, measure_toRelative, lay_toRelative, Doc.lay]
  | .indent inner, own, base, mode, context, column => by
      rw [toRelative, lay_nested own (own + size) (by omega), lay_toRelative, Doc.lay]
  | .dedent inner, own, base, mode, context, column => by
      rw [toRelative, lay_nested own (own - size) (by omega), lay_toRelative, Doc.lay]
  | .align columns inner, own, base, mode, context, column => by
      rw [toRelative, lay_nested own (own + columns) (by omega), lay_toRelative, Doc.lay]
  | .root inner, own, base, mode, context, column => by
      rw [toRelative, lay_toRelative, Doc.lay]

theorem lay_toRelatives :
    ∀ (parts : List Doc) (own base : Nat) (first : Relative) (mode : Mode) (context : Context)
      (column : Nat),
      (toRelatives size own base first parts).lay width own mode context column =
        let laid := first.lay width own mode (context.inFrontOfAll width own parts) column
        let rest := Doc.layAll width size parts own base mode context laid.1
        (rest.1, laid.2 ++ rest.2)
  | [], own, base, first, mode, context, column => by
      simp [toRelatives, Doc.layAll, Context.inFrontOfAll, Doc.areTextless, Absolute.measureAll,
        Context.fitsBehind]
  | part :: parts, own, base, first, mode, context, column => by
      rw [toRelatives, lay_toRelatives, lay_andThen,
        inFrontOfAll_cons size own base part parts context]
      simp only [lay_toRelative part, Doc.layAll, List.append_assoc]

end

end Lowering

end Layout

end TreeFormat
