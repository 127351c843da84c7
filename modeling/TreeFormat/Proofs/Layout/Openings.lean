import TreeFormat.Proofs.Layout.Rendering
import TreeFormat.Proofs.Lists

/-!
# How a document begins

A line break takes the indentation of what comes next, so where the first text on a
line stands is not decided by the break in front of it.  A document that opens in place
has nothing but lines and plain breaks in front of its first text.  The lines that were
laid out flat are spaces, and all breaks lead to the indentation of the document
(`Layout.opening_lay`).
-/

namespace TreeFormat

open Layout

namespace Doc

/-- A text that is not empty is among the leaves. -/
def Speaks (doc : Doc) : Prop :=
  ∃ content, content ≠ "" ∧ .text content ∈ doc.leaves

mutual

/-- Nothing in front of the first text is indented or goes back to the root column. -/
def Opens : Doc → Prop
  | .nil | .text _ | .line | .hardLine => True
  | .literalLine => False
  | .concat parts => AllOpens parts
  | .group inner | .root inner => inner.Opens
  | .indent inner | .dedent inner | .align _ inner => inner.isTextless = true

/-- The same for several documents one after the other. -/
def AllOpens : List Doc → Prop
  | [] => True
  | part :: parts => part.Opens ∧ (part.Speaks ∨ AllOpens parts)

end

theorem isTextless_of_mem
    {parts : List Doc} {part : Doc} (hparts : (concat parts).isTextless = true)
    (hpart : part ∈ parts) : part.isTextless = true := by
  rw [isTextless] at hparts
  induction parts with
  | nil => cases hpart
  | cons first parts ih =>
      rw [areTextless, Bool.and_eq_true] at hparts
      rcases List.mem_cons.1 hpart with rfl | hpart
      · exact hparts.1
      · exact ih hparts.2 hpart

mutual

theorem isTextless_iff : ∀ doc : Doc,
    doc.isTextless = true ↔ doc.leaves.filter Leaf.isVisible = []
  | .nil => by simp [isTextless, leaves]
  | .text content => by
      by_cases hempty : content.isEmpty = true <;> simp [isTextless, leaves, Leaf.isVisible, hempty]
  | .concat parts => by
      rw [isTextless, leaves]
      exact areTextless_iff parts
  | .line => by simp [isTextless, leaves, Leaf.isVisible]
  | .hardLine => by simp [isTextless, leaves, Leaf.isVisible]
  | .literalLine => by simp [isTextless, leaves, Leaf.isVisible]
  | .group inner => by
      rw [isTextless, leaves]
      exact isTextless_iff inner
  | .indent inner => by
      rw [isTextless, leaves]
      exact isTextless_iff inner
  | .dedent inner => by
      rw [isTextless, leaves]
      exact isTextless_iff inner
  | .align _ inner => by
      rw [isTextless, leaves]
      exact isTextless_iff inner
  | .root inner => by
      rw [isTextless, leaves]
      exact isTextless_iff inner

theorem areTextless_iff : ∀ parts : List Doc,
    areTextless parts = true ↔ (allLeaves parts).filter Leaf.isVisible = []
  | [] => by simp [areTextless, allLeaves]
  | part :: parts => by
      rw [areTextless, allLeaves, Bool.and_eq_true, List.filter_append, List.append_eq_nil_iff,
        isTextless_iff part, areTextless_iff parts]

end

end Doc

namespace Layout

variable {width size : Nat}

theorem layAll_eq_nil_iff
    (parts : List Doc) (own base : Nat) (mode : Mode) (context : Context) (column : Nat) :
    (Doc.layAll width size parts own base mode context column).2 = [] ↔
      Doc.areTextless parts = true := by
  have hbecomes := @becomes_layAll width size parts own base mode context column
  rw [Doc.areTextless_iff]
  constructor
  · intro hnil
    rw [hnil] at hbecomes
    exact List.forall₂_nil_right_iff.1 hbecomes
  · intro hnil
    rw [hnil] at hbecomes
    exact List.forall₂_nil_left_iff.1 hbecomes

theorem exists_text_of_speaks
    {doc : Doc} (hspeaks : doc.Speaks) (own base : Nat) (mode : Mode) (context : Context)
    (column : Nat) :
    ∃ content, .text content ∈ (doc.lay width size own base mode context column).2 := by
  obtain ⟨content, hcontent, hleaf⟩ := hspeaks
  have hbecomes := @becomes_lay width size doc own base mode context column
  have hvisible : .text content ∈ doc.leaves.filter Leaf.isVisible := by
    rw [List.mem_filter]
    exact ⟨hleaf, by simpa [Leaf.isVisible] using hcontent⟩
  obtain ⟨piece, hpiece, hwritten⟩ := exists_right_of_mem hbecomes hvisible
  cases piece with
  | newline indent => cases hwritten
  | space => cases hwritten
  | text content => exact ⟨content, hpiece⟩

/-! ## In front of the first text -/

/-- Spaces and line breaks to an indentation, and then either a text, or the end behind
a break that may lead elsewhere. -/
inductive Opening (own next : Nat) : List Piece → Prop where
  | nothing : Opening own next []
  | last : Opening own next [.newline next]
  | text (content : String) (rest : List Piece) : Opening own next (.text content :: rest)
  | space {rest : List Piece} (hrest : Opening own next rest) :
      Opening own next (.space :: rest)
  | newline {rest : List Piece} (hrest : Opening own next rest) :
      Opening own next (.newline own :: rest)

namespace Opening

variable {own next : Nat} {first second : List Piece}

theorem append_of_text
    (hfirst : Opening own next first) (htext : ∃ content, .text content ∈ first)
    (next' : Nat) (second : List Piece) : Opening own next' (first ++ second) := by
  induction hfirst with
  | nothing => simp at htext
  | last => simp at htext
  | text content rest => exact .text content _
  | space _ ih =>
      refine .space (ih ?_)
      simpa using htext
  | newline _ ih =>
      refine .newline (ih ?_)
      simpa using htext

theorem append (hfirst : Opening own own first) (hsecond : Opening own next second) :
    Opening own next (first ++ second) := by
  induction hfirst with
  | nothing => exact hsecond
  | last => exact .newline hsecond
  | text content rest => exact .text content _
  | space _ ih => exact .space ih
  | newline _ ih => exact .newline ih

end Opening

mutual

theorem opening_lay :
    ∀ (doc : Doc) (own base : Nat) (mode : Mode) (context : Context) (column : Nat), doc.Opens →
      Opening own (context.next.getD own) (doc.lay width size own base mode context column).2
  | .nil, _, _, _, _, _, _ => .nothing
  | .text content, _, _, _, _, _, _ => by
      rw [Doc.lay]
      split
      · exact .nothing
      · exact .text content []
  | .concat parts, own, base, mode, context, column, hopens => by
      rw [Doc.Opens] at hopens
      rw [Doc.lay]
      exact opening_layAll parts own base mode context column hopens
  | .line, _, _, mode, _, _, _ => by
      cases mode with
      | flat => exact .space .nothing
      | broken => exact .last
  | .hardLine, _, _, _, _, _, _ => .last
  | .literalLine, _, _, _, _, _, hopens => False.elim (by rwa [Doc.Opens] at hopens)
  | .group inner, own, base, _, context, column, hopens => by
      rw [Doc.Opens] at hopens
      rw [Doc.lay]
      exact opening_lay inner own base _ context column hopens
  | .root inner, own, _, mode, context, column, hopens => by
      rw [Doc.Opens] at hopens
      rw [Doc.lay]
      exact opening_lay inner own own mode context column hopens
  | .indent inner, own, _, _, _, _, hopens => by
      rw [Doc.Opens] at hopens
      rw [Doc.lay, Absolute.lay_of_isTextless hopens]
      exact .nothing
  | .dedent inner, own, _, _, _, _, hopens => by
      rw [Doc.Opens] at hopens
      rw [Doc.lay, Absolute.lay_of_isTextless hopens]
      exact .nothing
  | .align _ inner, own, _, _, _, _, hopens => by
      rw [Doc.Opens] at hopens
      rw [Doc.lay, Absolute.lay_of_isTextless hopens]
      exact .nothing

theorem opening_layAll :
    ∀ (parts : List Doc) (own base : Nat) (mode : Mode) (context : Context) (column : Nat),
      Doc.AllOpens parts →
      Opening own (context.next.getD own)
        (Doc.layAll width size parts own base mode context column).2
  | [], _, _, _, _, _, _ => .nothing
  | part :: parts, own, base, mode, context, column, hopens => by
      rw [Doc.AllOpens] at hopens
      obtain ⟨hpart, hrest⟩ := hopens
      rw [Doc.layAll]
      have hfirst := opening_lay part own base mode (context.inFrontOfAll width own parts) column
        hpart
      rcases hrest with hspeaks | hparts
      · exact hfirst.append_of_text (exists_text_of_speaks hspeaks _ _ _ _ _) _ _
      · -- The last break of the part goes on to the parts behind it, if there is one to go to.
        have hsecond := opening_layAll parts own base mode context
          (part.lay width size own base mode (context.inFrontOfAll width own parts) column).1 hparts
        by_cases htextless : Doc.areTextless parts = true
        · rw [(layAll_eq_nil_iff parts own base mode context _).2 htextless, List.append_nil]
          simpa [Context.inFrontOfAll, htextless] using hfirst
        · have hown : Opening own own (part.lay width size own base mode
              (context.inFrontOfAll width own parts) column).2 := by
            simpa [Context.inFrontOfAll, htextless] using hfirst
          exact hown.append hsecond

end

end Layout

end TreeFormat
