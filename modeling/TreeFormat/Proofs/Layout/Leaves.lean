import Mathlib.Data.List.Basic
import TreeFormat.Layout.Doc

/-!
# Leaves of documents

The parts of a document that are written or break the line, from left to right, and
the texts among them.
-/

namespace TreeFormat

/-- A part of a document that is written or breaks the line. -/
inductive Leaf where
  | text (content : String)
  | line
  | hardLine
  | literalLine
  deriving DecidableEq, Repr

/-- Every leaf but the empty text. -/
def Leaf.isVisible : Leaf → Bool
  | text content => !content.isEmpty
  | _ => true

mutual

/-- The leaves of a document from left to right. -/
def Doc.leaves : Doc → List Leaf
  | .nil => []
  | .text content => [.text content]
  | .concat parts => Doc.allLeaves parts
  | .line => [.line]
  | .hardLine => [.hardLine]
  | .literalLine => [.literalLine]
  | .group inner => inner.leaves
  | .indent inner => inner.leaves
  | .dedent inner => inner.leaves
  | .align _ inner => inner.leaves
  | .root inner => inner.leaves

/-- The leaves of several documents from left to right. -/
def Doc.allLeaves : List Doc → List Leaf
  | [] => []
  | part :: parts => part.leaves ++ Doc.allLeaves parts

end

/-- The content of a leaf that is a text. -/
def Leaf.text? : Leaf → Option String
  | text content => some content
  | _ => none

namespace Doc

/-- The texts of a document from left to right. -/
def texts (doc : Doc) : List String :=
  doc.leaves.filterMap Leaf.text?

theorem allLeaves_eq_flatMap (parts : List Doc) : allLeaves parts = parts.flatMap leaves := by
  induction parts with
  | nil => rfl
  | cons part parts ih => rw [allLeaves, List.flatMap_cons, ih]

@[simp] theorem leaves_concat (parts : List Doc) :
    (concat parts).leaves = parts.flatMap leaves := by
  rw [leaves, allLeaves_eq_flatMap]

@[simp] theorem leaves_append (first second : Doc) :
    (first ++ second).leaves = first.leaves ++ second.leaves := by
  change (first.append second).leaves = first.leaves ++ second.leaves
  cases first <;> simp [append, leaves, allLeaves_eq_flatMap]

@[simp] theorem leaves_join (separator : Doc) (docs : List Doc) :
    (join separator docs).leaves = (docs.intersperse separator).flatMap leaves := by
  rw [join, leaves_concat]

@[simp] theorem texts_nil : nil.texts = [] := by
  rfl

@[simp] theorem texts_text (content : String) : (text content).texts = [content] := by
  rfl

@[simp] theorem texts_line : line.texts = [] := by
  rfl

@[simp] theorem texts_hardLine : hardLine.texts = [] := by
  rfl

@[simp] theorem texts_literalLine : literalLine.texts = [] := by
  rfl

@[simp] theorem texts_concat (parts : List Doc) :
    (concat parts).texts = parts.flatMap texts := by
  rw [texts, leaves_concat, List.filterMap_flatMap]
  rfl

@[simp] theorem texts_group (inner : Doc) : (group inner).texts = inner.texts := by
  rfl

@[simp] theorem texts_indent (inner : Doc) : (indent inner).texts = inner.texts := by
  rfl

@[simp] theorem texts_root (inner : Doc) : (root inner).texts = inner.texts := by
  rfl

@[simp] theorem texts_append (first second : Doc) :
    (first ++ second).texts = first.texts ++ second.texts := by
  rw [texts, leaves_append, List.filterMap_append]
  rfl

@[simp] theorem texts_join (separator : Doc) (docs : List Doc) :
    (join separator docs).texts = (docs.intersperse separator).flatMap texts := by
  rw [join, texts_concat]

end Doc

end TreeFormat
