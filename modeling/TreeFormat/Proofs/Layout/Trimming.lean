import TreeFormat.Proofs.Layout.Columns
import TreeFormat.Proofs.Layout.Rendering

/-!
# Trimming and texts

Trimming goes by characters.  A line break that the layout puts at an end of the rendered
text and a line break of a text that stands there look alike to it, and both are dropped.
So the texts of a document come through if and only if none of them has a line break of its
own where only the layout may have one (`Layout.dropsBreaks_tidy_iff`).
-/

namespace TreeFormat

/-- Characters without a line break at either end. -/
def IsTrimmed (chars : List Char) : Prop :=
  chars.head? ≠ some '\n' ∧ chars.getLast? ≠ some '\n'

instance (chars : List Char) : Decidable (IsTrimmed chars) :=
  inferInstanceAs (Decidable (_ ∧ _))

/-- One line break behind characters, if there are any. -/
def endLine (chars : List Char) : List Char :=
  if chars = [] then [] else chars ++ ['\n']

namespace Layout

/-- The runs of a rendered document. -/
def runs (settings : Settings) (doc : Doc) : List Run :=
  Run.ofPieces 0 (pieces settings doc)

/-- The text has all runs but line breaks of the layout at both ends, and one line break
behind them. -/
def DropsBreaks (runs : List Run) (text : String) : Prop :=
  ∃ front body back,
    runs = List.replicate front .newline ++ body ++ List.replicate back .newline ∧
    text.toList = endLine (body.flatMap Run.chars)

/-- The runs that are no line breaks of the layout. -/
def withoutBreaks (runs : List Run) : List Run :=
  runs.filter (· ≠ .newline)

/-- The first run that is no line break of the layout is a text that begins with one. -/
def BreaksAhead (runs : List Run) : Prop :=
  ∃ content, (withoutBreaks runs).head? = some (.text content) ∧
    content.toList.head? = some '\n'

/-- The last run that is no line break of the layout is a text that ends with one. -/
def BreaksBehind (runs : List Run) : Prop :=
  ∃ content, (withoutBreaks runs).getLast? = some (.text content) ∧
    content.toList.getLast? = some '\n'

end Layout

/-! ## Trimmed characters -/

theorem isTrimmed_nil : IsTrimmed [] := by
  decide

theorem isTrimmed_append
    {first second : List Char} (hfirst : IsTrimmed first) (hsecond : IsTrimmed second) :
    IsTrimmed (first ++ second) := by
  by_cases hnil : first = []
  · rw [hnil]
    exact hsecond
  · by_cases hnil' : second = []
    · rw [hnil', List.append_nil]
      exact hfirst
    · constructor
      · rw [List.head?_append_of_ne_nil _ hnil]
        exact hfirst.1
      · rw [List.getLast?_append_of_ne_nil _ hnil']
        exact hsecond.2

/-- What stands between two marks does not matter. -/
theorem isTrimmed_between
    {mark mark' : List Char} (hmark : IsTrimmed mark) (hmark' : IsTrimmed mark')
    (hne : mark ≠ []) (hne' : mark' ≠ []) (inner : List Char) :
    IsTrimmed (mark ++ inner ++ mark') := by
  constructor
  · rw [List.append_assoc, List.head?_append_of_ne_nil _ hne]
    exact hmark.1
  · rw [List.getLast?_append_of_ne_nil _ hne']
    exact hmark'.2

theorem endLine_injective : Function.Injective endLine := by
  intro chars chars' heq
  unfold endLine at heq
  by_cases hnil : chars = []
  · by_cases hnil' : chars' = []
    · rw [hnil, hnil']
    · rw [if_pos hnil, if_neg hnil'] at heq
      exact absurd heq.symm (by simp)
  · by_cases hnil' : chars' = []
    · rw [if_neg hnil, if_pos hnil'] at heq
      exact absurd heq (by simp)
    · rw [if_neg hnil, if_neg hnil'] at heq
      exact List.append_cancel_right heq

theorem tidy_toList (text : String) : (tidy text).toList = endLine (trimBreaks text.toList) := by
  unfold tidy
  split
  · next hnil =>
      rw [hnil]
      rfl
  · next hcons =>
      rw [String.toList_ofList, endLine, if_neg hcons]

theorem trimBreaks_eq (text : List Char) :
    trimBreaks text = (text.dropWhile (· == '\n')).rdropWhile (· == '\n') := by
  rfl

/-- Trimming drops nothing but line breaks, at the two ends. -/
theorem exists_trimBreaks (text : List Char) :
    ∃ front back,
      text = List.replicate front '\n' ++ trimBreaks text ++ List.replicate back '\n' := by
  let dropped := text.takeWhile (· == '\n')
  let kept := text.dropWhile (· == '\n')
  let dropped' := kept.rtakeWhile (· == '\n')
  have hdropped : dropped = List.replicate dropped.length '\n' := by
    apply List.eq_replicate_of_mem
    intro char hchar
    simpa using List.mem_takeWhile_imp hchar
  have hdropped' : dropped' = List.replicate dropped'.length '\n' := by
    apply List.eq_replicate_of_mem
    intro char hchar
    simpa using List.mem_rtakeWhile_imp hchar
  refine ⟨dropped.length, dropped'.length, ?_⟩
  calc
    text = dropped ++ kept := List.takeWhile_append_dropWhile.symm
    _ = dropped ++ (trimBreaks text ++ dropped') := by
      rw [trimBreaks_eq, List.rdropWhile_append_rtakeWhile]
    _ = _ := by rw [← hdropped, ← hdropped', List.append_assoc]

theorem isTrimmed_trimBreaks (text : List Char) : IsTrimmed (trimBreaks text) := by
  let kept := text.dropWhile (· == '\n')
  have hprefix : trimBreaks text <+: kept := List.rdropWhile_prefix _ _
  by_cases hnil : trimBreaks text = []
  · rw [hnil]
    exact isTrimmed_nil
  · constructor
    · intro hhead
      have hkept : kept.head? = some '\n' := by
        obtain ⟨behind, hbehind⟩ := hprefix
        rw [← hbehind, List.head?_append_of_ne_nil _ hnil]
        exact hhead
      have hnot := List.head?_dropWhile_not (· == '\n') text
      rw [hkept] at hnot
      cases hnot
    · intro hlast
      have hnot := List.rdropWhile_last_not (· == '\n') kept hnil
      rw [List.getLast?_eq_some_getLast hnil] at hlast
      exact hnot (beq_iff_eq.2 (Option.some.inj hlast))

/-- Trimming stops at what is trimmed. -/
theorem trimBreaks_of_isTrimmed
    {body : List Char} (hbody : IsTrimmed body) (front back : Nat) :
    trimBreaks (List.replicate front '\n' ++ body ++ List.replicate back '\n') = body := by
  by_cases hnil : body = []
  · rw [hnil, List.append_nil, List.replicate_append_replicate, trimBreaks_eq]
    simp
  · have hfirst := List.head?_eq_some_head hnil
    have hlast := List.getLast?_eq_some_getLast hnil
    have hplain : body.head hnil ≠ '\n' := fun heq => hbody.1 (hfirst.trans (congrArg some heq))
    have hplain' : body.getLast hnil ≠ '\n' := fun heq =>
      hbody.2 (hlast.trans (congrArg some heq))
    rw [trimBreaks_core hfirst hlast hplain hplain']
    simp

/-! ## Trimmed runs -/

namespace Layout

theorem leaves_become_pieces (settings : Settings) (doc : Doc) :
    List.Forall₂ (fun leaf piece => Becomes leaf (Run.ofPiece piece))
      (doc.leaves.filter Leaf.isVisible) (pieces settings doc) := by
  rw [pieces_eq_absolute, Absolute.pieces_eq_lay]
  exact becomes_lay doc 0 0 .broken .atEnd 0

theorem render_eq_flatMap (settings : Settings) (doc : Doc) :
    (render settings doc).toList = (runs settings doc).flatMap Run.chars := by
  rw [render, String.toList_ofList]
  exact write_eq_flatMap 0 _ (ne_text_empty_of_becomes (leaves_become_pieces settings doc))

theorem leaves_become_runs (settings : Settings) (doc : Doc) :
    List.Forall₂ Becomes (doc.leaves.filter Leaf.isVisible)
      ((runs settings doc).filter Run.isLeaf) := by
  rw [runs, filter_ofPieces, List.forall₂_map_right_iff]
  exact leaves_become_pieces settings doc

theorem chars_ofPiece_ne_nil {piece : Piece} (hpiece : piece ≠ .text "") :
    (Run.ofPiece piece).chars ≠ [] := by
  cases piece with
  | text content =>
      intro hnil
      rw [Run.ofPiece, Run.chars, String.toList_eq_nil_iff] at hnil
      exact hpiece (congrArg Piece.text hnil)
  | space => exact List.cons_ne_nil _ _
  | newline indent => exact List.cons_ne_nil _ _

theorem chars_ofPieces_ne_nil
    {pending : Nat} {pieces : List Piece} (hpieces : ∀ piece ∈ pieces, piece ≠ .text "") :
    ∀ run ∈ Run.ofPieces pending pieces, run.chars ≠ [] := by
  induction pieces generalizing pending with
  | nil =>
      intro run hrun
      cases hrun
  | cons piece pieces ih =>
      rw [List.forall_mem_cons] at hpieces
      have hbehind : ∀ run ∈ Run.ofPiece piece :: Run.ofPieces piece.indentBehind pieces,
          run.chars ≠ [] :=
        List.forall_mem_cons.2 ⟨chars_ofPiece_ne_nil hpieces.1, ih hpieces.2⟩
      rcases ofPieces_cons pending piece pieces with hcons | ⟨hpending, -, hcons⟩
      · rw [hcons]
        exact hbehind
      · have hheld : (Run.indentation pending).chars ≠ [] := by
          rw [Run.chars, spaces, Ne, List.replicate_eq_nil_iff]
          exact Nat.ne_of_gt hpending
        rw [hcons]
        exact List.forall_mem_cons.2 ⟨hheld, hbehind⟩

theorem chars_runs_ne_nil (settings : Settings) (doc : Doc) :
    ∀ run ∈ runs settings doc, run.chars ≠ [] :=
  chars_ofPieces_ne_nil (ne_text_empty_of_becomes (leaves_become_pieces settings doc))

/-! ## Runs without the line breaks at both ends -/

section Body

variable {all body : List Run}

theorem withoutBreaks_cons_newline (all : List Run) :
    withoutBreaks (.newline :: all) = withoutBreaks all := by
  simp [withoutBreaks]

theorem withoutBreaks_append_newlines (all : List Run) (count : Nat) :
    withoutBreaks (all ++ List.replicate count .newline) = withoutBreaks all := by
  simp [withoutBreaks]

theorem withoutBreaks_newlines_append (count : Nat) (all : List Run) :
    withoutBreaks (List.replicate count .newline ++ all) = withoutBreaks all := by
  simp [withoutBreaks]

theorem exists_front (all : List Run) :
    ∃ count rest, all = List.replicate count .newline ++ rest ∧
      rest.head? = (withoutBreaks all).head? := by
  induction all with
  | nil => exact ⟨0, [], rfl, rfl⟩
  | cons run all ih =>
      by_cases hrun : run = .newline
      · obtain ⟨count, rest, hall, hhead⟩ := ih
        refine ⟨count + 1, rest, ?_, ?_⟩
        · rw [hrun, hall, List.replicate_succ, List.cons_append]
        · rw [hrun, withoutBreaks_cons_newline]
          exact hhead
      · refine ⟨0, run :: all, rfl, ?_⟩
        rw [withoutBreaks, List.filter_cons_of_pos (by simpa using hrun)]
        rfl

theorem exists_back (all : List Run) :
    ∃ rest count, all = rest ++ List.replicate count .newline ∧
      rest.getLast? = (withoutBreaks all).getLast? := by
  induction all using List.reverseRecOn with
  | nil => exact ⟨[], 0, rfl, rfl⟩
  | append_singleton all run ih =>
      by_cases hrun : run = .newline
      · obtain ⟨rest, count, hall, hlast⟩ := ih
        refine ⟨rest, count + 1, ?_, ?_⟩
        · rw [hrun, hall, List.replicate_succ', List.append_assoc]
        · rw [hrun, hlast]
          exact congrArg List.getLast? (withoutBreaks_append_newlines all 1).symm
      · refine ⟨all ++ [run], 0, by simp, ?_⟩
        have hlast : withoutBreaks (all ++ [run]) = withoutBreaks all ++ [run] := by
          simp [withoutBreaks, hrun]
        rw [hlast, List.getLast?_concat, List.getLast?_concat]

/-- Runs have line breaks of the layout at both ends, and what is left begins and ends with
something else. -/
theorem exists_body (all : List Run) :
    ∃ front body back,
      all = List.replicate front .newline ++ body ++ List.replicate back .newline ∧
      body.head? = (withoutBreaks all).head? ∧ body.getLast? = (withoutBreaks all).getLast? := by
  obtain ⟨front, rest, hall, hhead⟩ := exists_front all
  obtain ⟨body, back, hrest, hlast⟩ := exists_back rest
  have hkept : withoutBreaks all = withoutBreaks rest := by
    rw [hall, withoutBreaks_newlines_append]
  refine ⟨front, body, back, ?_, ?_, ?_⟩
  · rw [hall, hrest, List.append_assoc]
  · by_cases hnil : body = []
    · rw [hnil, List.getLast?_nil] at hlast
      rw [hkept, List.getLast?_eq_none_iff.1 hlast.symm, hnil]
    · rw [← hhead, hrest, List.head?_append_of_ne_nil _ hnil]
  · rw [hlast, hkept]

/-! ### The characters at both ends -/

theorem head?_flatMap_chars (hbody : ∀ run ∈ body, run.chars ≠ []) :
    (body.flatMap Run.chars).head? = body.head?.bind fun run => run.chars.head? := by
  cases body with
  | nil => rfl
  | cons run rest =>
      have hne := hbody run List.mem_cons_self
      rw [List.flatMap_cons, List.head?_append_of_ne_nil _ hne]
      rfl

theorem getLast?_flatMap_chars (hbody : ∀ run ∈ body, run.chars ≠ []) :
    (body.flatMap Run.chars).getLast? = body.getLast?.bind fun run => run.chars.getLast? := by
  induction body using List.reverseRecOn with
  | nil => rfl
  | append_singleton rest run _ =>
      have hne := hbody run (by simp)
      rw [List.flatMap_append, List.flatMap_singleton, List.getLast?_append_of_ne_nil _ hne,
        List.getLast?_concat]
      rfl

/-- Only a text can break the line with its first or last character. -/
theorem exists_text_of_breaks
    {run : Run} (hrun : run ≠ .newline) (hbreak : '\n' ∈ run.chars) :
    ∃ content, run = .text content := by
  cases run with
  | text content => exact ⟨content, rfl⟩
  | space => simp [Run.chars] at hbreak
  | newline => exact absurd rfl hrun
  | indentation count => simp [Run.chars, spaces] at hbreak

/-- The run at an end is a text that breaks the line there if and only if its characters do,
whichever end it is. -/
theorem exists_text_iff
    {edge : List Char → Option Char} (hedge : ∀ chars, edge chars = some '\n' → '\n' ∈ chars)
    {found : Option Run} (hfound : ∀ run ∈ found, run ∈ withoutBreaks all) :
    (∃ content, found = some (.text content) ∧ edge content.toList = some '\n') ↔
      (found.bind fun run => edge run.chars) = some '\n' := by
  constructor
  · rintro ⟨content, hrun, hbreak⟩
    rw [hrun]
    exact hbreak
  · intro hend
    obtain ⟨run, hrun, hbreak⟩ := Option.bind_eq_some_iff.1 hend
    have hkept : run ≠ .newline := by
      simpa using (List.mem_filter.1 (hfound run hrun)).2
    obtain ⟨content, rfl⟩ := exists_text_of_breaks hkept (hedge _ hbreak)
    exact ⟨content, hrun, hbreak⟩

theorem breaksAhead_iff
    (hbody : ∀ run ∈ body, run.chars ≠ []) (hhead : body.head? = (withoutBreaks all).head?) :
    BreaksAhead all ↔ (body.flatMap Run.chars).head? = some '\n' := by
  rw [head?_flatMap_chars hbody, hhead]
  exact exists_text_iff (fun _ => List.mem_of_head?) fun _ => List.mem_of_head?

theorem breaksBehind_iff
    (hbody : ∀ run ∈ body, run.chars ≠ [])
    (hlast : body.getLast? = (withoutBreaks all).getLast?) :
    BreaksBehind all ↔ (body.flatMap Run.chars).getLast? = some '\n' := by
  rw [getLast?_flatMap_chars hbody, hlast]
  exact exists_text_iff (fun _ => List.mem_of_getLast?) fun _ => List.mem_of_getLast?

/-- Runs that are trimmed have no line break of the layout at either end. -/
theorem ends_of_isTrimmed (htrimmed : IsTrimmed (body.flatMap Run.chars)) :
    body.head? = (withoutBreaks body).head? ∧ body.getLast? = (withoutBreaks body).getLast? := by
  obtain ⟨front, rest, hfront, hhead⟩ := exists_front body
  obtain ⟨rest', back, hback, hlast⟩ := exists_back body
  constructor
  · cases front with
    | zero =>
        rw [← hhead, hfront]
        rfl
    | succ front =>
        refine absurd ?_ htrimmed.1
        rw [hfront]
        rfl
  · cases back with
    | zero => rw [← hlast, ← List.append_nil rest', hback, List.replicate_zero, List.append_nil]
    | succ back =>
        refine absurd ?_ htrimmed.2
        rw [hback, List.replicate_succ', ← List.append_assoc, List.flatMap_append]
        simp [Run.chars]

end Body

theorem flatMap_chars_newlines (count : Nat) :
    (List.replicate count Run.newline).flatMap Run.chars = List.replicate count '\n' := by
  induction count with
  | zero => rfl
  | succ count ih => rw [List.replicate_succ, List.flatMap_cons, ih, List.replicate_succ]; rfl

/-- What trimming drops are line breaks of the layout if and only if no text breaks the line
in front of everything else or behind it. -/
theorem dropsBreaks_tidy_iff
    {all : List Run} {text : String} (hall : ∀ run ∈ all, run.chars ≠ [])
    (htext : text.toList = all.flatMap Run.chars) :
    DropsBreaks all (tidy text) ↔ ¬ BreaksAhead all ∧ ¬ BreaksBehind all := by
  constructor
  · rintro ⟨front, body, back, hsplit, hbody⟩
    have hsolid : ∀ run ∈ body, run.chars ≠ [] := by
      intro run hrun
      apply hall
      simp [hsplit, hrun]
    have hchars : body.flatMap Run.chars = trimBreaks text.toList :=
      endLine_injective (hbody.symm.trans (tidy_toList text))
    have htrimmed : IsTrimmed (body.flatMap Run.chars) := by
      rw [hchars]
      exact isTrimmed_trimBreaks _
    obtain ⟨hhead, hlast⟩ := ends_of_isTrimmed htrimmed
    have hkept : withoutBreaks body = withoutBreaks all := by
      rw [hsplit, withoutBreaks_append_newlines, withoutBreaks_newlines_append]
    rw [hkept] at hhead hlast
    rw [breaksAhead_iff hsolid hhead, breaksBehind_iff hsolid hlast]
    exact htrimmed
  · intro hbreaks
    obtain ⟨front, body, back, hsplit, hhead, hlast⟩ := exists_body all
    have hsolid : ∀ run ∈ body, run.chars ≠ [] := by
      intro run hrun
      apply hall
      simp [hsplit, hrun]
    rw [breaksAhead_iff hsolid hhead, breaksBehind_iff hsolid hlast] at hbreaks
    refine ⟨front, body, back, hsplit, ?_⟩
    rw [tidy_toList, htext, hsplit, List.flatMap_append, List.flatMap_append,
      flatMap_chars_newlines, flatMap_chars_newlines, trimBreaks_of_isTrimmed hbreaks]

end Layout

/-! ## Texts of a document -/

/-- The characters of the texts of a document. -/
def Doc.chars (doc : Doc) : List Char :=
  doc.texts.flatMap String.toList

namespace Layout

/-- The content of a run that is a text. -/
def Run.text? : Run → Option String
  | text content => some content
  | _ => none

theorem filterMap_withoutBreaks (all : List Run) :
    (withoutBreaks all).filterMap Run.text? = all.filterMap Run.text? := by
  rw [withoutBreaks, List.filterMap_filter]
  congr 1
  funext run
  cases run <;> rfl

theorem filterMap_isLeaf (all : List Run) :
    (all.filter Run.isLeaf).filterMap Run.text? = all.filterMap Run.text? := by
  rw [List.filterMap_filter]
  congr 1
  funext run
  cases run <;> rfl

/-- The texts that are written are the texts of the document. -/
theorem chars_eq_flatMap (settings : Settings) (doc : Doc) :
    doc.chars = ((runs settings doc).filterMap Run.text?).flatMap String.toList := by
  have hvisible : ∀ leaves : List Leaf,
      (leaves.filterMap Leaf.text?).flatMap String.toList =
        ((leaves.filter Leaf.isVisible).filterMap Leaf.text?).flatMap String.toList := by
    intro leaves
    induction leaves with
    | nil => rfl
    | cons leaf leaves ih =>
        cases leaf with
        | text content =>
            by_cases hempty : content = ""
            · rw [hempty]
              exact ih
            · have hshown : (Leaf.text content).isVisible = true := by
                simpa [Leaf.isVisible] using hempty
              rw [List.filter_cons_of_pos hshown]
              exact congrArg (content.toList ++ ·) ih
        | line => exact ih
        | hardLine => exact ih
        | literalLine => exact ih
  have hsame : ∀ {leaves : List Leaf} {all : List Run}, List.Forall₂ Becomes leaves all →
      leaves.filterMap Leaf.text? = all.filterMap Run.text? := by
    intro leaves all hall
    induction hall with
    | nil => rfl
    | cons hbecomes _ ih =>
        cases hbecomes with
        | text content _ => exact congrArg (content :: ·) ih
        | space => exact ih
        | lineBreak => exact ih
        | hardLine => exact ih
        | literalLine => exact ih
  rw [Doc.chars, Doc.texts, hvisible, hsame (leaves_become_runs settings doc), filterMap_isLeaf]

theorem not_breaks_of_isTrimmed
    {doc : Doc} (hdoc : IsTrimmed doc.chars) (settings : Settings) :
    ¬ BreaksAhead (runs settings doc) ∧ ¬ BreaksBehind (runs settings doc) := by
  rw [chars_eq_flatMap settings, ← filterMap_withoutBreaks] at hdoc
  constructor
  · rintro ⟨content, hhead, hbreak⟩
    obtain ⟨rest, hrest⟩ := List.head?_eq_some_iff.1 hhead
    have hne : content.toList ≠ [] := List.ne_nil_of_mem (List.mem_of_head? hbreak)
    have hfirst : (Run.text content :: rest).filterMap Run.text? =
        content :: rest.filterMap Run.text? := rfl
    apply hdoc.1
    rw [hrest, hfirst, List.flatMap_cons, List.head?_append_of_ne_nil _ hne]
    exact hbreak
  · rintro ⟨content, hlast, hbreak⟩
    obtain ⟨rest, hrest⟩ := List.getLast?_eq_some_iff.1 hlast
    have hne : content.toList ≠ [] := List.ne_nil_of_mem (List.mem_of_getLast? hbreak)
    have hend : [Run.text content].filterMap Run.text? = [content] := rfl
    apply hdoc.2
    rw [hrest, List.filterMap_append, hend, List.flatMap_append, List.flatMap_singleton,
      List.getLast?_append_of_ne_nil _ hne]
    exact hbreak

end Layout

end TreeFormat
