import TreeFormat.Proofs.Layout.Rendering
import TreeFormat.Proofs.Lists

/-!
# Documents that the width does not change

The width only decides which groups are laid out flat, and a group with a forced line
break inside never is.  In a steady document every group with a line also has a forced
break, so every line breaks and the layout is the same at all widths
(`Layout.pieces_of_steady`).
-/

namespace TreeFormat

open Layout

/-- A leaf that breaks the line in every layout. -/
def Leaf.isBreak : Leaf → Bool
  | hardLine | literalLine => true
  | _ => false

namespace Doc

/-- Where there is a line there is a forced break as well. -/
def Forced (doc : Doc) : Prop :=
  .line ∈ doc.leaves → ∃ leaf ∈ doc.leaves, leaf.isBreak = true

mutual

/-- No group leaves a line open. -/
def Steady : Doc → Prop
  | .nil | .text _ | .line | .hardLine | .literalLine => True
  | .concat parts => AllSteady parts
  | .group inner => inner.Forced ∧ inner.Steady
  | .indent inner | .dedent inner | .align _ inner | .root inner => inner.Steady

/-- No group of several documents leaves a line open. -/
def AllSteady : List Doc → Prop
  | [] => True
  | part :: parts => part.Steady ∧ AllSteady parts

end

mutual

/-- The pieces of a document when all its lines break, at an indentation, a root column
and the indentation of what comes behind. -/
def broken (size : Nat) : Doc → Nat → Nat → Option Nat → List Piece
  | .nil, _, _, _ => []
  | .text content, _, _, _ => if content.isEmpty then [] else [.text content]
  | .concat parts, own, base, next => allBroken size parts own base next
  | .line, own, _, next => [.newline (next.getD own)]
  | .hardLine, own, _, next => [.newline (next.getD own)]
  | .literalLine, _, base, _ => [.newline base]
  | .group inner, own, base, next => inner.broken size own base next
  | .indent inner, own, base, next => inner.broken size (own + size) base next
  | .dedent inner, own, base, next => inner.broken size (own - size) base next
  | .align columns inner, own, base, next => inner.broken size (own + columns) base next
  | .root inner, own, _, next => inner.broken size own own next

/-- The pieces of several documents when all their lines break. -/
def allBroken (size : Nat) : List Doc → Nat → Nat → Option Nat → List Piece
  | [], _, _, _ => []
  | part :: parts, own, base, next =>
    part.broken size own base (if areTextless parts then next else some own) ++
      allBroken size parts own base next

end

theorem allSteady_iff (parts : List Doc) : AllSteady parts ↔ ∀ part ∈ parts, part.Steady := by
  induction parts with
  | nil => simp [AllSteady]
  | cons part parts ih => rw [AllSteady, ih, List.forall_mem_cons]

end Doc

namespace Layout

variable {width size : Nat}

/-! ## Forced breaks -/

mutual

/-- A look at a document in flat mode finds that it does not fit, or gets to its end
without a forced break. -/
theorem measure_flat :
    ∀ (doc : Doc) (column : Nat),
      Absolute.measure width .flat column doc = .settled false ∨
        (∀ leaf ∈ doc.leaves, leaf.isBreak = false) ∧
          ∃ behind, Absolute.measure width .flat column doc = .open behind
  | .nil, column => .inr ⟨by simp [Doc.leaves], column, rfl⟩
  | .text content, column => by
      rw [Absolute.measure, advance]
      split
      · exact .inr ⟨by simp [Doc.leaves, Leaf.isBreak], column, rfl⟩
      · split
        · exact .inl rfl
        · exact .inr ⟨by simp [Doc.leaves, Leaf.isBreak], _, rfl⟩
  | .concat parts, column => by
      rw [Absolute.measure, Doc.leaves]
      exact measureAll_flat parts column
  | .line, column => by
      rw [Absolute.measure, advance]
      split
      · exact .inl rfl
      · exact .inr ⟨by simp [Doc.leaves, Leaf.isBreak], _, rfl⟩
  | .hardLine, column => .inl rfl
  | .literalLine, column => .inl rfl
  | .group inner, column => by
      rw [Absolute.measure, Doc.leaves]
      exact measure_flat inner column
  | .indent inner, column => by
      rw [Absolute.measure, Doc.leaves]
      exact measure_flat inner column
  | .dedent inner, column => by
      rw [Absolute.measure, Doc.leaves]
      exact measure_flat inner column
  | .align _ inner, column => by
      rw [Absolute.measure, Doc.leaves]
      exact measure_flat inner column
  | .root inner, column => by
      rw [Absolute.measure, Doc.leaves]
      exact measure_flat inner column

theorem measureAll_flat :
    ∀ (parts : List Doc) (column : Nat),
      Absolute.measureAll width .flat column parts = .settled false ∨
        (∀ leaf ∈ Doc.allLeaves parts, leaf.isBreak = false) ∧
          ∃ behind, Absolute.measureAll width .flat column parts = .open behind
  | [], column => .inr ⟨by simp [Doc.allLeaves], column, rfl⟩
  | part :: parts, column => by
      rw [Absolute.measureAll, Doc.allLeaves]
      rcases measure_flat part column with hfits | ⟨hpart, behind, hopen⟩
      · rw [hfits]
        exact .inl rfl
      · rw [hopen]
        rcases measureAll_flat parts behind with hfits | ⟨hparts, hopen⟩
        · exact .inl hfits
        · exact .inr ⟨List.forall_mem_append.2 ⟨hpart, hparts⟩, hopen⟩

end

theorem groupMode_of_break
    {doc : Doc} (hbreak : ∃ leaf ∈ doc.leaves, leaf.isBreak = true) (context : Context)
    (column : Nat) :
    context.groupMode .broken (Absolute.measure width .flat column doc) = .broken := by
  obtain ⟨leaf, hleaf, hforced⟩ := hbreak
  rcases @measure_flat width doc column with hfits | ⟨hnone, -⟩
  · rw [hfits]
    rfl
  · rw [hnone leaf hleaf] at hforced
    cases hforced

/-! ## Lines that all break -/

mutual

theorem lay_of_lineless :
    ∀ (doc : Doc) (own base : Nat) (mode : Mode) (context : Context) (column : Nat),
      .line ∉ doc.leaves →
        (doc.lay width size own base mode context column).2 =
          doc.broken size own base context.next
  | .nil, _, _, _, _, _, _ => rfl
  | .text content, _, _, _, _, _, _ => by
      rw [Doc.lay, Doc.broken]
      split <;> rfl
  | .concat parts, own, base, mode, context, column, hline => by
      rw [Doc.leaves] at hline
      exact layAll_of_lineless parts own base mode context column hline
  | .line, _, _, _, _, _, hline => absurd List.mem_cons_self hline
  | .hardLine, _, _, _, _, _, _ => rfl
  | .literalLine, _, _, _, _, _, _ => rfl
  | .group inner, own, base, _, context, column, hline =>
      lay_of_lineless inner own base _ context column hline
  | .indent inner, own, base, mode, context, column, hline =>
      lay_of_lineless inner (own + size) base mode context column hline
  | .dedent inner, own, base, mode, context, column, hline =>
      lay_of_lineless inner (own - size) base mode context column hline
  | .align columns inner, own, base, mode, context, column, hline =>
      lay_of_lineless inner (own + columns) base mode context column hline
  | .root inner, own, _, mode, context, column, hline =>
      lay_of_lineless inner own own mode context column hline

theorem layAll_of_lineless :
    ∀ (parts : List Doc) (own base : Nat) (mode : Mode) (context : Context) (column : Nat),
      .line ∉ Doc.allLeaves parts →
        (Doc.layAll width size parts own base mode context column).2 =
          Doc.allBroken size parts own base context.next
  | [], _, _, _, _, _, _ => rfl
  | part :: parts, own, base, mode, context, column, hline => by
      rw [Doc.allLeaves, List.mem_append, not_or] at hline
      rw [Doc.layAll, Doc.allBroken, lay_of_lineless part _ _ _ _ _ hline.1,
        layAll_of_lineless parts _ _ _ _ _ hline.2]
      rfl

end

mutual

/-- In broken mode every line of a steady document breaks. -/
theorem lay_of_steady :
    ∀ (doc : Doc) (own base : Nat) (context : Context) (column : Nat), doc.Steady →
      (doc.lay width size own base .broken context column).2 =
        doc.broken size own base context.next
  | .nil, _, _, _, _, _ => rfl
  | .text content, _, _, _, _, _ => by
      rw [Doc.lay, Doc.broken]
      split <;> rfl
  | .concat parts, own, base, context, column, hsteady => by
      rw [Doc.Steady] at hsteady
      exact layAll_of_steady parts own base context column hsteady
  | .line, _, _, _, _, _ => rfl
  | .hardLine, _, _, _, _, _ => rfl
  | .literalLine, _, _, _, _, _ => rfl
  | .group inner, own, base, context, column, hsteady => by
      rw [Doc.Steady] at hsteady
      rw [Doc.lay, Doc.broken]
      -- A group without a line may be flat, but then its mode makes no difference.
      by_cases hline : .line ∈ inner.leaves
      · rw [groupMode_of_break (hsteady.1 hline)]
        exact lay_of_steady inner own base context column hsteady.2
      · exact lay_of_lineless inner own base _ context column hline
  | .indent inner, own, base, context, column, hsteady => by
      rw [Doc.Steady] at hsteady
      exact lay_of_steady inner (own + size) base context column hsteady
  | .dedent inner, own, base, context, column, hsteady => by
      rw [Doc.Steady] at hsteady
      exact lay_of_steady inner (own - size) base context column hsteady
  | .align columns inner, own, base, context, column, hsteady => by
      rw [Doc.Steady] at hsteady
      exact lay_of_steady inner (own + columns) base context column hsteady
  | .root inner, own, _, context, column, hsteady => by
      rw [Doc.Steady] at hsteady
      exact lay_of_steady inner own own context column hsteady

theorem layAll_of_steady :
    ∀ (parts : List Doc) (own base : Nat) (context : Context) (column : Nat),
      Doc.AllSteady parts →
        (Doc.layAll width size parts own base .broken context column).2 =
          Doc.allBroken size parts own base context.next
  | [], _, _, _, _, _ => rfl
  | part :: parts, own, base, context, column, hsteady => by
      rw [Doc.AllSteady] at hsteady
      rw [Doc.layAll, Doc.allBroken, lay_of_steady part _ _ _ _ hsteady.1,
        layAll_of_steady parts _ _ _ _ hsteady.2]
      rfl

end

/-- The layout of a steady document takes no notice of the width. -/
theorem pieces_of_steady
    {doc : Doc} (hsteady : doc.Steady) (settings : Settings) :
    pieces settings doc = doc.broken settings.indentSize 0 0 none := by
  rw [pieces_eq_absolute, Absolute.pieces_eq_lay, lay_of_steady doc _ _ _ _ hsteady]
  rfl

/-! ## Leaves of broken documents -/

/-- The run that a leaf turns into where every line breaks. -/
def Breaks (leaf : Leaf) (run : Run) : Prop :=
  Becomes leaf run ∧ (leaf = .line → run = .newline)

mutual

theorem breaks_broken :
    ∀ (doc : Doc) (own base : Nat) (next : Option Nat),
      List.Forall₂ (fun leaf piece => Breaks leaf (Run.ofPiece piece))
        (doc.leaves.filter Leaf.isVisible) (doc.broken size own base next)
  | .nil, _, _, _ => .nil
  | .text content, _, _, _ => by
      rw [Doc.leaves, Doc.broken]
      by_cases hempty : content.isEmpty = true
      · simp [Leaf.isVisible, hempty]
      · rw [List.filter_cons_of_pos (by simpa [Leaf.isVisible] using hempty), if_neg hempty]
        exact .cons ⟨.text content (by simpa using hempty), nofun⟩ .nil
  | .concat parts, own, base, next => by
      rw [Doc.leaves, Doc.broken]
      exact breaks_allBroken parts own base next
  | .line, _, _, _ => .cons ⟨.lineBreak, fun _ => rfl⟩ .nil
  | .hardLine, _, _, _ => .cons ⟨.hardLine, nofun⟩ .nil
  | .literalLine, _, _, _ => .cons ⟨.literalLine, nofun⟩ .nil
  | .group inner, own, base, next => breaks_broken inner own base next
  | .indent inner, own, base, next => breaks_broken inner (own + size) base next
  | .dedent inner, own, base, next => breaks_broken inner (own - size) base next
  | .align columns inner, own, base, next => breaks_broken inner (own + columns) base next
  | .root inner, own, _, next => breaks_broken inner own own next

theorem breaks_allBroken :
    ∀ (parts : List Doc) (own base : Nat) (next : Option Nat),
      List.Forall₂ (fun leaf piece => Breaks leaf (Run.ofPiece piece))
        ((Doc.allLeaves parts).filter Leaf.isVisible) (Doc.allBroken size parts own base next)
  | [], _, _, _ => .nil
  | part :: parts, own, base, next => by
      rw [Doc.allLeaves, List.filter_append, Doc.allBroken]
      exact List.rel_append (breaks_broken part _ _ _) (breaks_allBroken parts _ _ _)

end

/-- Every line of a steady document becomes a line break, at all widths. -/
theorem breaks_pieces
    {doc : Doc} (hsteady : doc.Steady) (settings : Settings) :
    List.Forall₂ Breaks (doc.leaves.filter Leaf.isVisible)
      ((pieces settings doc).map Run.ofPiece) := by
  rw [pieces_of_steady hsteady, List.forall₂_map_right_iff]
  exact breaks_broken doc 0 0 none

/-- Documents with lines between them stand apart where every line breaks. -/
theorem exists_shares
    {docs : List Doc} {runs : List Run}
    (hruns : List.Forall₂ Breaks ((Doc.join .line docs).leaves.filter Leaf.isVisible) runs) :
    ∃ shares : List (List Run),
      runs = (shares.intersperse [.newline]).flatten ∧
      List.Forall₂ (fun doc share =>
        List.Forall₂ Becomes (doc.leaves.filter Leaf.isVisible) share) docs shares := by
  have hshare : ∀ {leaves runs}, List.Forall₂ Breaks leaves runs →
      List.Forall₂ Becomes leaves runs := fun hbreaks => hbreaks.imp fun _ _ => And.left
  rw [Doc.leaves_join] at hruns
  induction docs generalizing runs with
  | nil =>
      cases hruns
      exact ⟨[], rfl, .nil⟩
  | cons doc docs ih =>
      cases docs with
      | nil =>
          rw [List.intersperse_singleton, List.flatMap_singleton] at hruns
          exact ⟨[runs], by simp, .cons (hshare hruns) .nil⟩
      | cons next docs =>
          rw [List.intersperse_cons_cons, List.flatMap_cons, List.flatMap_cons,
            List.filter_append] at hruns
          obtain ⟨share, rest, rfl, hdoc, hrest⟩ := forall₂_append_split hruns
          rw [List.filter_append] at hrest
          cases hrest with
          | cons hline hrest =>
              obtain ⟨shares, rfl, hshares⟩ := ih hrest
              refine ⟨share :: shares, ?_, .cons (hshare hdoc) hshares⟩
              cases hshares with
              | cons hnext hshares =>
                  rw [hline.2 rfl]
                  simp

end Layout

end TreeFormat
