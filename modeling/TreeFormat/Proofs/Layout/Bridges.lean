import TreeFormat.Proofs.Layout.Gaps
import TreeFormat.Proofs.Layout.Shares
import TreeFormat.Proofs.Layout.Trimming

/-!
# From a mark to the text behind it

The leaves of a document between a mark and the next text decide whether the two are on one
line.  If there are none, then the text is written right behind the mark
(`Layout.exists_follows`), whatever else the document has and however wide the lines are.
A forced break among them puts the text on another line.
-/

namespace TreeFormat

namespace Layout

/-- The visible leaves in front of the first text. -/
def leadIn (leaves : List Leaf) : List Leaf :=
  (leaves.filter Leaf.isVisible).takeWhile fun leaf => leaf.text?.isNone

/-- The first text that is not empty. -/
def firstText? (leaves : List Leaf) : Option String :=
  (leaves.filter Leaf.isVisible).findSome? Leaf.text?

/-- What is written for the pieces between two texts: spaces and line breaks, and one of the
latter if and only if the layout breaks the line there. -/
structure Bridges (gap : List Piece) (chars : List Char) : Prop where
  empty : gap = [] → chars = []
  blank : ∀ char ∈ chars, char = ' ' ∨ char = '\n'
  breaks : '\n' ∈ chars ↔ ∃ indent, .newline indent ∈ gap

/-- A mark and a text behind it in the layout of a document, in the written text, and in the
trimmed one unless trimming starts between them. -/
structure Follows (settings : Settings) (whole : Doc) (before mark gap : List Piece)
    (content : String) (after : List Piece) : Prop where
  layout : pieces settings whole = before ++ (mark ++ (gap ++ .text content :: after))
  written : ∃ above between,
    Bridges gap between ∧
    write 0 (before ++ (mark ++ (gap ++ [.text content]))) =
      above ++ (write 0 mark ++ between ++ content.toList) ∧
    (render settings whole).toList =
      above ++ (write 0 mark ++ between ++ content.toList) ++ write 0 after ∧
    ∀ first next,
      (write 0 mark).head? = some first → first ≠ '\n' →
      content.toList.head? = some next → next ≠ '\n' →
        ∃ kept below, kept <:+ above ∧
          (tidy (render settings whole)).toList =
            kept ++ (write 0 mark ++ between ++ [next]) ++ below

/-! ## The first text -/

theorem split_of_firstText?
    {leaves : List Leaf} {content : String} (hfirst : firstText? leaves = some content) :
    ∃ rest, leaves.filter Leaf.isVisible = leadIn leaves ++ .text content :: rest := by
  unfold leadIn
  unfold firstText? at hfirst
  generalize leaves.filter Leaf.isVisible = visible at hfirst ⊢
  induction visible with
  | nil => cases hfirst
  | cons leaf visible ih =>
      cases leaf with
      | text said =>
          cases hfirst
          exact ⟨visible, rfl⟩
      | line =>
          obtain ⟨rest, hrest⟩ := ih hfirst
          exact ⟨rest, congrArg (Leaf.line :: ·) hrest⟩
      | hardLine =>
          obtain ⟨rest, hrest⟩ := ih hfirst
          exact ⟨rest, congrArg (Leaf.hardLine :: ·) hrest⟩
      | literalLine =>
          obtain ⟨rest, hrest⟩ := ih hfirst
          exact ⟨rest, congrArg (Leaf.literalLine :: ·) hrest⟩

/-- Either a text comes first, or there is something in front of the first text. -/
theorem head?_of_firstText?
    {leaves : List Leaf} {content : String} (hfirst : firstText? leaves = some content) :
    leadIn leaves = [] ∧ (leaves.filter Leaf.isVisible).head? = some (.text content) ∨
      ∃ leaf lead, leadIn leaves = leaf :: lead ∧ leaf.text? = none ∧
        (leaves.filter Leaf.isVisible).head? = some leaf := by
  obtain ⟨rest, hsplit⟩ := split_of_firstText? hfirst
  cases hlead : leadIn leaves with
  | nil =>
      rw [hsplit, hlead]
      exact .inl ⟨rfl, rfl⟩
  | cons leaf lead =>
      have hleaf : leaf ∈ leadIn leaves := by simp [hlead]
      rw [hsplit, hlead]
      exact .inr ⟨leaf, lead, rfl, by simpa using List.mem_takeWhile_imp hleaf, rfl⟩

theorem filter_leadIn (leaves : List Leaf) :
    (leadIn leaves).filter Leaf.isVisible = leadIn leaves := by
  rw [List.filter_eq_self]
  intro leaf hleaf
  exact (List.mem_filter.1 ((List.takeWhile_prefix _).subset hleaf)).2

/-! ## Writing behind a mark -/

theorem exists_held (front : List Piece) (pending : Nat) :
    ∃ above held, ∀ back, write pending (front ++ back) = above ++ write held back := by
  induction front generalizing pending with
  | nil => exact ⟨[], pending, fun _ => rfl⟩
  | cons piece front ih =>
      cases piece with
      | text content =>
          obtain ⟨above, held, hwrite⟩ := ih 0
          exact ⟨(if content.toList.head? = some '\n' then [] else spaces pending) ++
            (content.toList ++ above), held, by simp [write, hwrite]⟩
      | space =>
          obtain ⟨above, held, hwrite⟩ := ih 0
          exact ⟨spaces pending ++ ' ' :: above, held, by simp [write, hwrite]⟩
      | newline indent =>
          obtain ⟨above, held, hwrite⟩ := ih indent
          exact ⟨'\n' :: above, held, by simp [write, hwrite]⟩

theorem exists_blank
    {gap : List Piece} (hblank : IsBlank gap) (held : Nat) (content : String) :
    ∃ between,
      (∀ char ∈ between, char = ' ' ∨ char = '\n') ∧
      ('\n' ∈ between ↔ ∃ indent, .newline indent ∈ gap) ∧
      ∀ back, write held (gap ++ .text content :: back) =
        between ++ (content.toList ++ write 0 back) := by
  have hspaces : ∀ count, ∀ char ∈ spaces count, char = ' ' :=
    fun count char hchar => List.eq_of_mem_replicate hchar
  have hplain : ∀ count, '\n' ∉ spaces count := by
    intro count hmem
    exact absurd (hspaces count _ hmem) (by decide)
  induction gap generalizing held with
  | nil =>
      by_cases hbreak : content.toList.head? = some '\n'
      · exact ⟨[], by simp [write, hbreak]⟩
      · refine ⟨spaces held, fun char hchar => .inl (hspaces held char hchar), ?_, ?_⟩
        · simp [hplain]
        · simp [write, hbreak]
  | cons piece gap ih =>
      have hrest : IsBlank gap := fun said hsaid => hblank said (List.mem_cons_of_mem _ hsaid)
      cases piece with
      | text said => exact absurd List.mem_cons_self (hblank said)
      | space =>
          obtain ⟨between, hchars, hbreaks, hwrite⟩ := ih hrest 0
          refine ⟨spaces held ++ ' ' :: between, ?_, ?_, by simp [write, hwrite]⟩
          · rw [List.forall_mem_append, List.forall_mem_cons]
            exact ⟨fun char hchar => .inl (hspaces held char hchar), .inl rfl, hchars⟩
          · simp [hplain, hbreaks]
      | newline indent =>
          obtain ⟨between, hchars, -, hwrite⟩ := ih hrest indent
          refine ⟨'\n' :: between, ?_, ?_, by simp [write, hwrite]⟩
          · rw [List.forall_mem_cons]
            exact ⟨.inr rfl, hchars⟩
          · exact ⟨fun _ => ⟨indent, List.mem_cons_self⟩, fun _ => List.mem_cons_self⟩

theorem exists_bridge
    {gap : List Piece} (hblank : IsBlank gap) {held : Nat} (hheld : gap = [] → held = 0)
    (content : String) :
    ∃ between, Bridges gap between ∧
      ∀ back, write held (gap ++ .text content :: back) =
        between ++ (content.toList ++ write 0 back) := by
  by_cases hgap : gap = []
  · refine ⟨[], ⟨fun _ => rfl, by simp, by simp [hgap]⟩, ?_⟩
    intro back
    simp [hgap, hheld hgap, write, spaces]
  · obtain ⟨between, hchars, hbreaks, hwrite⟩ := exists_blank hblank held content
    exact ⟨between, ⟨fun hnil => absurd hnil hgap, hchars, hbreaks⟩, hwrite⟩

theorem write_texts
    {mark : List Piece} (hmark : ∀ piece ∈ mark, piece.isText = true) (back : List Piece) :
    write 0 (mark ++ back) = write 0 mark ++ write 0 back := by
  induction mark with
  | nil => rfl
  | cons piece mark ih =>
      rw [List.forall_mem_cons] at hmark
      obtain ⟨content, rfl⟩ := isText_iff.1 hmark.1
      simp [write, ih hmark.2]

/-- Behind a mark that consists of texts nothing but spaces and line breaks is written up to
the next text. -/
theorem exists_write_behind
    (before : List Piece) {mark gap : List Piece} (hmark : ∀ piece ∈ mark, piece.isText = true)
    (hblank : IsBlank gap) (content : String) :
    ∃ above between, Bridges gap between ∧ ∀ back,
      write 0 (before ++ (mark ++ (gap ++ .text content :: back))) =
        above ++ (write 0 mark ++ between ++ content.toList) ++ write 0 back := by
  cases mark with
  | nil =>
      by_cases hgap : gap = []
      · -- Nothing is in between, so the indentation is written in front.
        obtain ⟨above, hwrite, -, -⟩ := exists_above before 0 content
        refine ⟨above, [], ⟨fun _ => rfl, by simp, by simp [hgap]⟩, ?_⟩
        intro back
        simp [hgap, hwrite, write, spaces]
      · obtain ⟨above, held, habove⟩ := exists_held before 0
        obtain ⟨between, hbridges, hwrite⟩ :=
          @exists_bridge gap hblank held (fun hnil => absurd hnil hgap) content
        refine ⟨above, between, hbridges, ?_⟩
        intro back
        simp [habove, hwrite, write]
  | cons piece mark =>
      obtain ⟨said, rfl⟩ := isText_iff.1 (hmark piece List.mem_cons_self)
      obtain ⟨above, habove, -, -⟩ := exists_above before 0 said
      obtain ⟨between, hbridges, hwrite⟩ :=
        @exists_bridge gap hblank 0 (fun _ => rfl) content
      refine ⟨above, between, hbridges, ?_⟩
      intro back
      have hbehind := write_texts hmark (gap ++ .text content :: back)
      rw [List.cons_append] at hbehind
      rw [List.cons_append, habove, hbehind, hwrite]
      simp only [List.append_assoc]

theorem follows_of_layout
    {settings : Settings} {whole : Doc} {before mark gap after : List Piece} {content : String}
    (hlayout : pieces settings whole = before ++ (mark ++ (gap ++ .text content :: after)))
    (hmark : ∀ piece ∈ mark, piece.isText = true) (hblank : IsBlank gap) :
    Follows settings whole before mark gap content after := by
  obtain ⟨above, between, hbridges, hwrite⟩ := exists_write_behind before hmark hblank content
  have hrender : (render settings whole).toList =
      above ++ (write 0 mark ++ between ++ content.toList) ++ write 0 after := by
    rw [render, String.toList_ofList, hlayout, hwrite]
  refine ⟨hlayout, above, between, hbridges, ?_, hrender, ?_⟩
  · rw [hwrite, write, List.append_nil]
  · intro first next hfirst hplain hnext hplain'
    obtain ⟨rest, hrest⟩ := List.head?_eq_some_iff.1 hnext
    let core := write 0 mark ++ between ++ [next]
    have hhead : core.head? = some first := by
      simp [core, List.head?_append, hfirst]
    have hlast : core.getLast? = some next := List.getLast?_concat
    have hsplit : render settings whole =
        String.ofList (above ++ core ++ (rest ++ write 0 after)) := by
      rw [← String.toList_inj, hrender, String.toList_ofList, hrest]
      simp only [core, List.append_assoc, List.cons_append, List.nil_append]
    rw [hsplit, tidy_core hhead hlast hplain hplain']
    exact ⟨_, _, List.dropWhile_suffix _, rfl⟩

/-! ## Leaves of a document -/

theorem isText_of_piecesOf
    {leaves : List Leaf} {pieces : List Piece} (hleaves : ∀ leaf ∈ leaves, leaf.text?.isSome)
    (hpieces : PiecesOf leaves pieces) : ∀ piece ∈ pieces, piece.isText = true := by
  intro piece hpiece
  obtain ⟨leaf, hleaf, hbecomes⟩ := exists_right_of_mem hpieces.flip hpiece
  have htext := hleaves leaf (List.mem_of_mem_filter hleaf)
  cases piece with
  | text content => rfl
  | space =>
      cases hbecomes
      cases htext
  | newline indent =>
      cases hbecomes <;> cases htext

theorem isBlank_of_piecesOf
    {leaves : List Leaf} {pieces : List Piece} (hleaves : ∀ leaf ∈ leaves, leaf.text? = none)
    (hpieces : PiecesOf leaves pieces) : IsBlank pieces := by
  intro content hcontent
  obtain ⟨leaf, hleaf, hbecomes⟩ := exists_right_of_mem hpieces.flip hcontent
  have htext := hleaves leaf (List.mem_of_mem_filter hleaf)
  cases hbecomes
  cases htext

/-- Wherever a document has a mark and leaves with a text right behind it, it is laid out with
the mark and the text in their places and with what leads up to the text in between. -/
theorem exists_follows
    {whole : Doc} {ahead mark leaves behind : List Leaf} {content : String}
    (hleaves : whole.leaves = ahead ++ mark ++ leaves ++ behind)
    (hmark : ∀ leaf ∈ mark, leaf.text?.isSome) (hfirst : firstText? leaves = some content)
    (settings : Settings) :
    ∃ before marked gap after,
      PiecesOf ahead before ∧ PiecesOf mark marked ∧ PiecesOf (leadIn leaves) gap ∧
      Follows settings whole before marked gap content after := by
  obtain ⟨rest, hsplit⟩ := split_of_firstText? hfirst
  have hpieces := leaves_become_pieces settings whole
  rw [hleaves, List.filter_append, List.filter_append, List.filter_append, hsplit,
    List.append_assoc, List.append_assoc] at hpieces
  obtain ⟨before, behind', hlayout, hbefore, hpieces⟩ := forall₂_append_split hpieces
  obtain ⟨marked, behind', rfl, hmarked, hpieces⟩ := forall₂_append_split hpieces
  rw [List.append_assoc] at hpieces
  obtain ⟨gap, behind', rfl, hgap, hpieces⟩ := forall₂_append_split hpieces
  cases hpieces with
  | @cons _ piece _ after htext hafter =>
      obtain rfl : piece = .text content := by
        cases piece with
        | text said =>
            cases htext
            rfl
        | space => cases htext
        | newline indent => cases htext
      have hlead : PiecesOf (leadIn leaves) gap := by rwa [PiecesOf, filter_leadIn]
      have hblank : IsBlank gap := by
        refine isBlank_of_piecesOf ?_ hlead
        intro leaf hleaf
        simpa using List.mem_takeWhile_imp hleaf
      exact ⟨before, marked, gap, after, hbefore, hmarked, hlead,
        follows_of_layout hlayout (isText_of_piecesOf hmark hmarked) hblank⟩

end Layout

end TreeFormat
