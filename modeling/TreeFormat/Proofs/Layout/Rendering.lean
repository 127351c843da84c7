import Mathlib.Data.List.Forall2
import TreeFormat.Proofs.Layout.Leaves
import TreeFormat.Proofs.Layout.Runs

/-!
# What rendering writes

Rendering a document writes its leaves from left to right and adds nothing but
indentation.  A rendered text is cut into runs: the text of a leaf, the space or
the break of a line, and runs of indentation.  The runs that are no indentation
belong to the leaves one by one, and indentation stands only between a line break
and something that goes on behind it on the same line.
-/

namespace TreeFormat

open Layout

/-! ## Runs -/

namespace Layout

/-- The indentation of the line that a piece leads to. -/
def Piece.indentBehind : Piece → Nat
  | newline indent => indent
  | _ => 0

/-- A run of characters of a rendered text. -/
inductive Run where
  | text (content : String)
  | space
  | newline
  /-- Spaces that the layout puts at the start of a line. -/
  | indentation (count : Nat)
  deriving DecidableEq, Repr

namespace Run

/-- The characters of a run. -/
def chars : Run → List Char
  | text content => content.toList
  | space => [' ']
  | newline => ['\n']
  | indentation count => spaces count

/-- Whether a run belongs to a leaf. -/
def isLeaf : Run → Bool
  | indentation _ => false
  | _ => true

/-- Whether indentation may stand in front of a run: in front of the space of a
line and in front of a text that does not start with a line break. -/
def takesIndentation : Run → Bool
  | space => true
  | text content =>
    match content.toList with
    | [] => false
    | c :: _ => c != '\n'
  | _ => false

/-- The run of a piece. -/
def ofPiece : Piece → Run
  | .text content => text content
  | .space => space
  | .newline _ => newline

/-- The indentation that was held back, as a run. -/
def held (pending : Nat) : List Run :=
  if pending = 0 then [] else [indentation pending]

/-- The runs that are written for pieces behind an indentation that is still held
back. -/
def ofPieces : Nat → List Piece → List Run
  | _, [] => []
  | pending, piece :: rest =>
    (if (ofPiece piece).takesIndentation then held pending else []) ++
      ofPiece piece :: ofPieces piece.indentBehind rest

end Run

/-- The runs that a leaf may turn into.  An empty text turns into none. -/
inductive Becomes : Leaf → Run → Prop where
  | text (content : String) (hcontent : content ≠ "") : Becomes (.text content) (.text content)
  | space : Becomes .line .space
  | lineBreak : Becomes .line .newline
  | hardLine : Becomes .hardLine .newline
  | literalLine : Becomes .literalLine .newline

/-! ## Pieces as runs -/

theorem flatMap_held (pending : Nat) :
    (Run.held pending).flatMap Run.chars = spaces pending := by
  unfold Run.held
  split
  · next hzero => simp [hzero, spaces]
  · simp [Run.chars]

theorem isLeaf_ofPiece (piece : Piece) : (Run.ofPiece piece).isLeaf = true := by
  cases piece <;> rfl

theorem write_eq_flatMap
    (pending : Nat) (pieces : List Piece) (hpieces : ∀ piece ∈ pieces, piece ≠ .text "") :
    write pending pieces = (Run.ofPieces pending pieces).flatMap Run.chars := by
  induction pieces generalizing pending with
  | nil => rfl
  | cons piece pieces ih =>
      have hrest := fun pending => ih pending fun piece hpiece =>
        hpieces piece (List.mem_cons_of_mem _ hpiece)
      cases piece with
      | newline indent =>
          simp [write, Run.ofPieces, Run.ofPiece, Run.takesIndentation, Run.chars,
            Piece.indentBehind, hrest]
      | space =>
          simp [write, Run.ofPieces, Run.ofPiece, Run.takesIndentation, Run.chars,
            Piece.indentBehind, hrest, flatMap_held]
      | text content =>
          have hcontent : content.toList ≠ [] := by
            have := hpieces (.text content) List.mem_cons_self
            simpa using this
          obtain ⟨c, cs, hchars⟩ := List.exists_cons_of_ne_nil hcontent
          by_cases hbreak : c = '\n'
          · simp [write, Run.ofPieces, Run.ofPiece, Run.takesIndentation, Run.chars,
              Piece.indentBehind, hrest, hchars, hbreak]
          · simp [write, Run.ofPieces, Run.ofPiece, Run.takesIndentation, Run.chars,
              Piece.indentBehind, hrest, hchars, hbreak, flatMap_held]

theorem ofPieces_cons
    (pending : Nat) (piece : Piece) (rest : List Piece) :
    let behind := Run.ofPiece piece :: Run.ofPieces piece.indentBehind rest
    Run.ofPieces pending (piece :: rest) = behind ∨
      0 < pending ∧ (Run.ofPiece piece).takesIndentation = true ∧
        Run.ofPieces pending (piece :: rest) = .indentation pending :: behind := by
  by_cases hpending : pending = 0
  · left
    simp [Run.ofPieces, Run.held, hpending]
  · by_cases htakes : (Run.ofPiece piece).takesIndentation = true
    · right
      refine ⟨Nat.pos_of_ne_zero hpending, htakes, ?_⟩
      rw [Run.ofPieces, if_pos htakes, Run.held, if_neg hpending]
      rfl
    · left
      rw [Run.ofPieces, if_neg htakes]
      rfl

theorem filter_ofPieces
    (pending : Nat) (pieces : List Piece) :
    (Run.ofPieces pending pieces).filter Run.isLeaf = pieces.map Run.ofPiece := by
  induction pieces generalizing pending with
  | nil => rfl
  | cons piece pieces ih =>
      rcases ofPieces_cons pending piece pieces with hcons | ⟨-, -, hcons⟩
      · rw [hcons, List.filter_cons_of_pos (isLeaf_ofPiece piece), ih]
        rfl
      · rw [hcons, List.filter_cons_of_neg (by simp [Run.isLeaf]),
          List.filter_cons_of_pos (isLeaf_ofPiece piece), ih]
        rfl

/-- Indentation comes from the line break in front of it, or from the one that was
still held back, and the run behind it takes it. -/
theorem indentation_placed
    {pending : Nat} {pieces : List Piece} {before after : List Run} {count : Nat}
    (hruns : Run.ofPieces pending pieces = before ++ .indentation count :: after) :
    0 < count ∧ (before.getLast? = some .newline ∨ before = [] ∧ 0 < pending) ∧
      ∃ run rest, after = run :: rest ∧ run.takesIndentation = true := by
  induction pieces generalizing pending before with
  | nil => simp [Run.ofPieces] at hruns
  | cons piece pieces ih =>
      -- Behind the run of a piece only a line break holds indentation back.
      have hbehind : ∀ first,
          Run.ofPiece piece :: Run.ofPieces piece.indentBehind pieces =
            first ++ .indentation count :: after →
          0 < count ∧ first.getLast? = some .newline ∧
            ∃ run rest, after = run :: rest ∧ run.takesIndentation = true := by
        intro first hfirst
        cases first with
        | nil => cases piece <;> simp [Run.ofPiece] at hfirst
        | cons run first =>
            obtain ⟨rfl, hrest⟩ := List.cons.inj hfirst
            obtain ⟨hcount, hplace, hafter⟩ := ih hrest
            refine ⟨hcount, ?_, hafter⟩
            rcases hplace with hlast | ⟨rfl, hheld⟩
            · rw [List.getLast?_cons, hlast]
              rfl
            · cases piece with
              | newline indent => rfl
              | space => exact absurd hheld (Nat.lt_irrefl 0)
              | text content => exact absurd hheld (Nat.lt_irrefl 0)
      rcases ofPieces_cons pending piece pieces with hcons | ⟨hpending, htakes, hcons⟩
      · rw [hcons] at hruns
        obtain ⟨hcount, hlast, hafter⟩ := hbehind before hruns
        exact ⟨hcount, .inl hlast, hafter⟩
      · rw [hcons] at hruns
        cases before with
        | nil =>
            obtain ⟨hcount, hafter⟩ := List.cons.inj hruns
            cases hcount
            exact ⟨hpending, .inr ⟨rfl, hpending⟩, _, _, hafter.symm, htakes⟩
        | cons run before =>
            obtain ⟨rfl, hrest⟩ := List.cons.inj hruns
            obtain ⟨hcount, hlast, hafter⟩ := hbehind before hrest
            refine ⟨hcount, .inl ?_, hafter⟩
            rw [List.getLast?_cons, hlast]
            rfl

/-! ## Leaves become pieces -/

section Leaves

variable {width size : Nat}

mutual

theorem becomes_lay :
    ∀ (doc : Doc) (own base : Nat) (mode : Mode) (context : Context) (column : Nat),
      List.Forall₂ (fun leaf piece => Becomes leaf (Run.ofPiece piece))
        (doc.leaves.filter Leaf.isVisible)
        (doc.lay width size own base mode context column).2
  | .nil, _, _, _, _, _ => .nil
  | .text content, _, _, _, _, _ => by
      rw [Doc.leaves, Doc.lay]
      by_cases hempty : content.isEmpty = true
      · simp [Leaf.isVisible, hempty]
      · rw [List.filter_cons_of_pos (by simpa [Leaf.isVisible] using hempty), if_neg hempty]
        exact .cons (.text content (by simpa using hempty)) .nil
  | .concat parts, own, base, mode, context, column => by
      rw [Doc.leaves, Doc.lay]
      exact becomes_layAll parts own base mode context column
  | .line, _, _, mode, _, _ => by
      cases mode with
      | flat => exact .cons .space .nil
      | broken => exact .cons .lineBreak .nil
  | .hardLine, _, _, _, _, _ => .cons .hardLine .nil
  | .literalLine, _, _, _, _, _ => .cons .literalLine .nil
  | .group inner, _, _, _, _, _ => by
      rw [Doc.leaves, Doc.lay]
      exact becomes_lay inner _ _ _ _ _
  | .indent inner, _, _, _, _, _ => by
      rw [Doc.leaves, Doc.lay]
      exact becomes_lay inner _ _ _ _ _
  | .dedent inner, _, _, _, _, _ => by
      rw [Doc.leaves, Doc.lay]
      exact becomes_lay inner _ _ _ _ _
  | .align columns inner, _, _, _, _, _ => by
      rw [Doc.leaves, Doc.lay]
      exact becomes_lay inner _ _ _ _ _
  | .root inner, _, _, _, _, _ => by
      rw [Doc.leaves, Doc.lay]
      exact becomes_lay inner _ _ _ _ _

theorem becomes_layAll :
    ∀ (parts : List Doc) (own base : Nat) (mode : Mode) (context : Context) (column : Nat),
      List.Forall₂ (fun leaf piece => Becomes leaf (Run.ofPiece piece))
        ((Doc.allLeaves parts).filter Leaf.isVisible)
        (Doc.layAll width size parts own base mode context column).2
  | [], _, _, _, _, _ => .nil
  | part :: parts, own, base, mode, context, column => by
      rw [Doc.allLeaves, List.filter_append, Doc.layAll]
      exact List.rel_append (becomes_lay part _ _ _ _ _) (becomes_layAll parts _ _ _ _ _)

end

theorem ne_text_empty_of_becomes
    {leaves : List Leaf} {pieces : List Piece}
    (hall : List.Forall₂ (fun leaf piece => Becomes leaf (Run.ofPiece piece)) leaves pieces) :
    ∀ piece ∈ pieces, piece ≠ .text "" := by
  induction hall with
  | nil => simp
  | cons hbecomes _ ih =>
      rw [List.forall_mem_cons]
      refine ⟨?_, ih⟩
      rintro rfl
      cases hbecomes with
      | text _ hcontent => exact hcontent rfl

end Leaves

/-- Rendering writes every leaf of a document once and in its order: a text as it
is, a line as a space or a line break, and the other two as a line break.  All it
adds is indentation, which follows a line break of the layout and has the space of
a line or a text that does not start with a line break behind it. -/
theorem render_eq_runs
    (settings : Settings) (doc : Doc) :
    ∃ runs : List Run,
      (render settings doc).toList = runs.flatMap Run.chars ∧
      List.Forall₂ Becomes (doc.leaves.filter Leaf.isVisible) (runs.filter Run.isLeaf) ∧
      ∀ before count after, runs = before ++ .indentation count :: after →
        0 < count ∧ before.getLast? = some .newline ∧
          ∃ run rest, after = run :: rest ∧ run.takesIndentation = true := by
  let laid := doc.lay settings.width settings.indentSize 0 0 .broken .atEnd 0
  have hpieces : pieces settings doc = laid.2 := by
    rw [pieces_eq_absolute, Absolute.pieces_eq_lay]
  have hleaves :
      List.Forall₂ (fun leaf piece => Becomes leaf (Run.ofPiece piece))
        (doc.leaves.filter Leaf.isVisible) laid.2 :=
    becomes_lay doc 0 0 .broken .atEnd 0
  refine ⟨Run.ofPieces 0 laid.2, ?_, ?_, ?_⟩
  · rw [render, hpieces, String.toList_ofList]
    exact write_eq_flatMap 0 laid.2 (ne_text_empty_of_becomes hleaves)
  · rw [filter_ofPieces, List.forall₂_map_right_iff]
    exact hleaves
  · intro before count after hruns
    obtain ⟨hcount, hplace, hafter⟩ := indentation_placed hruns
    refine ⟨hcount, ?_, hafter⟩
    rcases hplace with hlast | ⟨-, hpending⟩
    · exact hlast
    · exact absurd hpending (Nat.lt_irrefl 0)

end Layout

end TreeFormat
