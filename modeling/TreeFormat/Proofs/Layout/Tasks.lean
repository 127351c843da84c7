import Mathlib.Data.List.Basic
import TreeFormat.Proofs.Layout.Lowering
import TreeFormat.Proofs.Layout.Places

/-!
# What a command stands for

A command of the layout machine does a task of the document that is laid out: a
part of it, the first few elements of a concatenation, or what is left of a
literal line.  A task knows the position and the place of its part, and its
command is the relative form of the part at the absolute indentation of that
place.  Behind its nesting a literal line stands at the root column.

The main statement is `Task.opening`: what the machine finds at the top of the
command of a task are again tasks of the document, which cover the same leaves.
-/

namespace TreeFormat

open Layout

/-- How much of a literal line is left to do behind its nesting. -/
inductive LiteralStage where
  | all | lineBreak | anchor
  deriving DecidableEq, Repr

/-- The work that a command of the machine stands for. -/
inductive Task where
  /-- The part at a position, or the first few elements of the concatenation
  there. -/
  | part (position : List Nat) (place : Place)
  /-- What is left of the literal line at a position, at the root column. -/
  | literal (position : List Nat) (root : Nat) (stage : LiteralStage)

/-- The relative form of what is left of a literal line. -/
def LiteralStage.relative : LiteralStage → Relative
  | all => .append .hardLine .anchor
  | lineBreak => .hardLine
  | anchor => .anchor

namespace Task

/-- The indentation of a task: the absolute one of its part, or the root column. -/
def indent : Task → Nat
  | part _ place => place.indent
  | literal _ root _ => root

/-- The relative form of what a task does. -/
def relative (size : Nat) : Task → Relative
  | part _ place => toRelative size place.indent place.root place.doc
  | literal _ _ stage => stage.relative

/-- The command for a task. -/
def command (size : Nat) (task : Task) (mode : Mode) : Command :=
  ⟨task.indent, mode, task.relative size⟩

/-- The positions of the texts and line breaks that a task lays out. -/
def leaves : Task → List (List Nat)
  | part position place => place.doc.leafPositions.map (position ++ ·)
  | literal position _ stage => if stage = .anchor then [] else [position]

/-- Whether a task belongs to a document: its part stands where the task says,
whole or up to some element. -/
def IsOf (size : Nat) (doc : Doc) : Task → Prop
  | part position place =>
    doc.placeAt? size position = some place ∨
      ∃ parts count, doc.placeAt? size position = some ⟨place.indent, place.root, .concat parts⟩ ∧
        place.doc = .concat (parts.take count)
  | literal position root _ =>
    ∃ indent, doc.placeAt? size position = some ⟨indent, root, .literalLine⟩

end Task

namespace Task

variable {size : Nat} {doc : Doc}

/-- What the machine finds at the top of a command that does a task: nothing to
do, one text or line break, or one or two tasks of the same document that cover
the same leaves between them. -/
inductive Opening (size : Nat) (doc : Doc) (task : Task) : Prop where
  | done
    (hrelative : task.relative size = .nil ∨ task.relative size = .anchor)
    (hleaves : task.leaves = [])
  | text (content : String) (position : List Nat)
    (hrelative : task.relative size = .text content)
    (hleaves : task.leaves = [position])
  | line (position : List Nat)
    (hrelative : task.relative size = .line)
    (hleaves : task.leaves = [position])
  | hardLine (position : List Nat)
    (hrelative : task.relative size = .hardLine)
    (hleaves : task.leaves = [position])
  | append (first second : Task)
    (hrelative : task.relative size = .append (first.relative size) (second.relative size))
    (hfirst : first.indent = task.indent) (hsecond : second.indent = task.indent)
    (hfirstOf : first.IsOf size doc) (hsecondOf : second.IsOf size doc)
    (hleaves : task.leaves = first.leaves ++ second.leaves)
  | group (inner : Task)
    (hrelative : task.relative size = .group (inner.relative size))
    (hinner : inner.indent = task.indent) (hinnerOf : inner.IsOf size doc)
    (hleaves : task.leaves = inner.leaves)
  | nest (offset : Int) (inner : Task)
    (hrelative : task.relative size = .nest offset (inner.relative size))
    (hinner : inner.indent = shift task.indent offset) (hinnerOf : inner.IsOf size doc)
    (hleaves : task.leaves = inner.leaves)

/-- A task is opened like any other one with the same relative form, indentation
and leaves. -/
theorem Opening.congr
    {task other : Task} (hother : Opening size doc other)
    (hrelative : task.relative size = other.relative size)
    (hindent : task.indent = other.indent) (hleaves : task.leaves = other.leaves) :
    Opening size doc task := by
  cases hother with
  | done h h' => exact .done (by rwa [hrelative]) (by rw [hleaves, h'])
  | text content position h h' =>
      exact .text content position (by rw [hrelative, h]) (by rw [hleaves, h'])
  | line position h h' => exact .line position (by rw [hrelative, h]) (by rw [hleaves, h'])
  | hardLine position h h' =>
      exact .hardLine position (by rw [hrelative, h]) (by rw [hleaves, h'])
  | append first second h hfirst hsecond hfirstOf hsecondOf h' =>
      exact .append first second (by rw [hrelative, h]) (by rw [hindent, hfirst])
        (by rw [hindent, hsecond]) hfirstOf hsecondOf (by rw [hleaves, h'])
  | group inner h hinner hinnerOf h' =>
      exact .group inner (by rw [hrelative, h]) (by rw [hindent, hinner]) hinnerOf
        (by rw [hleaves, h'])
  | nest offset inner h hinner hinnerOf h' =>
      exact .nest offset inner (by rw [hrelative, h]) (by rw [hindent, hinner]) hinnerOf
        (by rw [hleaves, h'])

theorem Opening.leaves_of_nil
    {task : Task} (hopening : Opening size doc task) (hnil : task.relative size = .nil) :
    task.leaves = [] := by
  cases hopening <;> simp_all

/-- A task whose relative form nests that of another one. -/
theorem Opening.of_nested
    {task inner : Task} (hinnerOf : inner.IsOf size doc)
    (hopening : Opening size doc inner) {offset : Int}
    (hrelative : task.relative size = (inner.relative size).nested offset)
    (hinner : (task.indent : Int) + offset = inner.indent)
    (hleaves : task.leaves = inner.leaves) :
    Opening size doc task := by
  by_cases hnil : inner.relative size = .nil
  · exact .done (.inl (by rw [hrelative, hnil, Relative.nested]))
      (by rw [hleaves, hopening.leaves_of_nil hnil])
  · rw [nested_of_ne_nil hnil] at hrelative
    by_cases hzero : offset = 0
    · rw [if_pos hzero] at hrelative
      exact hopening.congr hrelative (by omega) hleaves
    · rw [if_neg hzero] at hrelative
      apply Opening.nest offset inner hrelative _ hinnerOf hleaves
      rw [shift, hinner, Int.toNat_natCast]

/-- A task whose relative form groups that of another one. -/
theorem Opening.of_grouped
    {task inner : Task} (hinnerOf : inner.IsOf size doc)
    (hopening : Opening size doc inner)
    (hrelative : task.relative size = (inner.relative size).grouped)
    (hinner : inner.indent = task.indent) (hleaves : task.leaves = inner.leaves) :
    Opening size doc task := by
  by_cases hnil : inner.relative size = .nil
  · exact .done (.inl (by rw [hrelative, hnil, Relative.grouped]))
      (by rw [hleaves, hopening.leaves_of_nil hnil])
  · rw [grouped_of_ne_nil hnil] at hrelative
    exact .group inner hrelative hinner hinnerOf hleaves

/-- A part of a document one level further down is a part of the document. -/
theorem isOf_child
    {position : List Nat} {place inner : Place} (index : Nat)
    (hplace : (part position place).IsOf size doc)
    (hconcat : ∀ parts, place.doc ≠ .concat parts)
    (hinner : place.child? size index = some inner) :
    (part (position ++ [index]) inner).IsOf size doc := by
  rcases hplace with hwhole | ⟨parts, count, -, hfront⟩
  · exact .inl (by rw [Doc.placeAt?_append, hwhole]; exact hinner)
  · exact absurd hfront (hconcat _)

/-- A concatenation, of which a task may do only the first few elements. -/
theorem exists_concat
    {position : List Nat} {indent root : Nat} {parts : List Doc}
    (hparts : (part position ⟨indent, root, .concat parts⟩).IsOf size doc) :
    ∃ all count, doc.placeAt? size position = some ⟨indent, root, .concat all⟩ ∧
      parts = all.take count := by
  rcases hparts with hwhole | ⟨all, count, hplace, hfront⟩
  · exact ⟨parts, parts.length, hwhole, List.take_length.symm⟩
  · exact ⟨all, count, hplace, Doc.concat.inj hfront⟩

/-- All elements of a concatenation but the last one are the first few elements of
it, and the last one is a part. -/
theorem isOf_init_and_last
    {position : List Nat} {indent root : Nat} {init : List Doc} {last : Doc}
    (hparts : (part position ⟨indent, root, .concat (init ++ [last])⟩).IsOf size doc) :
    (part position ⟨indent, root, .concat init⟩).IsOf size doc ∧
      (part (position ++ [init.length]) ⟨indent, root, last⟩).IsOf size doc := by
  obtain ⟨all, count, hplace, htake⟩ := exists_concat hparts
  have hprefix : init ++ [last] <+: all := htake ▸ List.take_prefix count all
  obtain ⟨rest, rfl⟩ := hprefix
  constructor
  · exact .inr ⟨_, init.length, hplace, by simp⟩
  · exact .inl (by rw [Doc.placeAt?_append, hplace]; simp [Place.child?])

theorem toRelatives_append
    (indent root : Nat) (first : Relative) (init : List Doc) (last : Doc) :
    toRelatives size indent root first (init ++ [last]) =
      (toRelatives size indent root first init).andThen (toRelative size indent root last) := by
  induction init generalizing first with
  | nil => rfl
  | cons part parts ih => exact ih _

theorem weights_append (init : List Doc) (last : Doc) :
    Doc.weights (init ++ [last]) = Doc.weights init + last.weight := by
  induction init with
  | nil => simp [Doc.weights]
  | cons part parts ih =>
      rw [List.cons_append, Doc.weights, ih, Doc.weights, Nat.add_assoc]

theorem weight_pos (doc : Doc) : 0 < doc.weight := by
  cases doc <;> simp [Doc.weight]

theorem leaves_last
    (position : List Nat) (indent root : Nat) (init : List Doc) (last : Doc) :
    (part position ⟨indent, root, .concat (init ++ [last])⟩).leaves =
      (part position ⟨indent, root, .concat init⟩).leaves ++
        (part (position ++ [init.length]) ⟨indent, root, last⟩).leaves := by
  simp [leaves, Doc.leafPositions, Doc.leafPositionsFrom_append, Function.comp_def]

/-- A concatenation without its last element, and that element. -/
theorem Opening.of_andThen
    {task first second : Task}
    (hfirstOf : first.IsOf size doc) (hsecondOf : second.IsOf size doc)
    (hopenFirst : Opening size doc first) (hopenSecond : Opening size doc second)
    (hrelative : task.relative size = (first.relative size).andThen (second.relative size))
    (hfirst : first.indent = task.indent) (hsecond : second.indent = task.indent)
    (hleaves : task.leaves = first.leaves ++ second.leaves) :
    Opening size doc task := by
  by_cases hfirstNil : first.relative size = .nil
  · rw [hopenFirst.leaves_of_nil hfirstNil, List.nil_append] at hleaves
    rw [hfirstNil, Relative.andThen] at hrelative
    exact hopenSecond.congr hrelative hsecond.symm hleaves
  · by_cases hsecondNil : second.relative size = .nil
    · rw [hopenSecond.leaves_of_nil hsecondNil, List.append_nil] at hleaves
      have hsame : (first.relative size).andThen .nil = first.relative size := by
        cases first.relative size <;> rfl
      rw [hsecondNil, hsame] at hrelative
      exact hopenFirst.congr hrelative hfirst.symm hleaves
    · rw [andThen_of_ne_nil hfirstNil hsecondNil] at hrelative
      exact .append first second hrelative hfirst hsecond hfirstOf hsecondOf hleaves

theorem opening_literal
    {position : List Nat} {root : Nat} {stage : LiteralStage}
    (htask : (literal position root stage).IsOf size doc) :
    Opening size doc (literal position root stage) := by
  cases stage with
  | all =>
      exact .append (literal position root .lineBreak) (literal position root .anchor)
        rfl rfl rfl htask htask (by simp [leaves])
  | lineBreak => exact .hardLine position rfl (by simp [leaves])
  | anchor => exact .done (.inr rfl) (by simp [leaves])

/-- Every part of a document opens.  The recursion drops the last element of a
concatenation, because the relative form has it on top. -/
theorem opening_part :
    ∀ (inner : Doc) (position : List Nat) (indent root : Nat),
      (part position ⟨indent, root, inner⟩).IsOf size doc →
        Opening size doc (part position ⟨indent, root, inner⟩)
  | .nil, _, _, _, _ => .done (.inl rfl) (by simp [leaves, Doc.leafPositions])
  | .text content, position, _, _, _ => by
      cases hempty : content.isEmpty with
      | true =>
          exact .done (.inl (by simp [relative, toRelative, Relative.ofText, hempty]))
            (by simp [leaves, Doc.leafPositions, hempty])
      | false =>
          exact .text content position (by simp [relative, toRelative, Relative.ofText, hempty])
            (by simp [leaves, Doc.leafPositions, hempty])
  | .concat parts, position, indent, root, hpart => by
      rcases List.eq_nil_or_concat parts with hnil | ⟨init, last, hlast⟩
      · subst hnil
        exact .done (.inl rfl) (by simp [leaves, Doc.leafPositions, Doc.leafPositionsFrom])
      · rw [List.concat_eq_append] at hlast
        have hinitWeight : (Doc.concat init).weight < (Doc.concat parts).weight := by
          have hpos := weight_pos last
          simp only [hlast, Doc.weight, weights_append]
          omega
        have hlastWeight : last.weight < (Doc.concat parts).weight := by
          simp only [hlast, Doc.weight, weights_append]
          omega
        rw [hlast] at hpart ⊢
        obtain ⟨hinitOf, hlastOf⟩ := isOf_init_and_last hpart
        exact .of_andThen hinitOf hlastOf (opening_part (.concat init) _ _ _ hinitOf)
          (opening_part last _ _ _ hlastOf) (toRelatives_append indent root .nil init last)
          rfl rfl (leaves_last position indent root init last)
  | .line, position, _, _, _ => .line position rfl (by simp [leaves, Doc.leafPositions])
  | .hardLine, position, _, _, _ => .hardLine position rfl (by simp [leaves, Doc.leafPositions])
  | .literalLine, position, indent, root, hpart => by
      have hliteral : (literal position root .all).IsOf size doc := by
        rcases hpart with hwhole | ⟨_, _, -, hfront⟩
        · exact ⟨indent, hwhole⟩
        · exact absurd hfront (by simp)
      exact .of_nested hliteral (opening_literal hliteral) rfl
        (by simp only [Task.indent]; omega) (by simp [leaves, Doc.leafPositions])
  | .group inner, position, indent, root, hpart => by
      have hinner := isOf_child 0 hpart (by simp) rfl
      exact .of_grouped hinner (opening_part inner _ _ _ hinner) rfl rfl
        (by simp [leaves, Doc.leafPositions, Function.comp_def])
  | .indent inner, position, indent, root, hpart => by
      have hinner := isOf_child 0 hpart (by simp) rfl
      exact .of_nested hinner (opening_part inner _ _ _ hinner) rfl
        (by simp only [Task.indent]; omega)
        (by simp [leaves, Doc.leafPositions, Function.comp_def])
  | .dedent inner, position, indent, root, hpart => by
      have hinner := isOf_child 0 hpart (by simp) rfl
      exact .of_nested hinner (opening_part inner _ _ _ hinner) rfl
        (by simp only [Task.indent]; omega)
        (by simp [leaves, Doc.leafPositions, Function.comp_def])
  | .align columns inner, position, indent, root, hpart => by
      have hinner := isOf_child 0 hpart (by simp) rfl
      exact .of_nested hinner (opening_part inner _ _ _ hinner) rfl
        (by simp only [Task.indent]; omega)
        (by simp [leaves, Doc.leafPositions, Function.comp_def])
  | .root inner, position, indent, root, hpart => by
      have hinner := isOf_child 0 hpart (by simp) rfl
      exact (opening_part inner _ _ _ hinner).congr rfl rfl
        (by simp [leaves, Doc.leafPositions, Function.comp_def])
termination_by inner => inner.weight
decreasing_by
  · exact hinitWeight
  · exact hlastWeight
  all_goals
    simp only [Doc.weight]
    omega

/-- Every task of a document opens. -/
theorem opening {task : Task} (htask : task.IsOf size doc) : Opening size doc task := by
  cases task with
  | part position place => exact opening_part place.doc position place.indent place.root htask
  | literal position root stage => exact opening_literal htask

end Task

end TreeFormat
