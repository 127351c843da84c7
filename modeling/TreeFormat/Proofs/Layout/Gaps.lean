import TreeFormat.Proofs.Layout.Columns

/-!
# Gaps between texts

Between two texts of a layout nothing is written but spaces and line breaks.  A definition
is written with such gaps between its header, its body and `end`, and there is a line break
in each of them (`Layout.exists_separated`).  Trimming the blank lines at both ends of a
text leaves a definition as it is (`Layout.setApart_of_layout`).
-/

namespace TreeFormat

namespace Layout

/-- Whether a piece is a text. -/
def Piece.isText : Piece → Bool
  | text _ => true
  | _ => false

/-- Pieces without a text among them. -/
def IsBlank (pieces : List Piece) : Prop :=
  ∀ content, .text content ∉ pieces

/-- The pieces from the first text to the last one. -/
def spoken (pieces : List Piece) : List Piece :=
  (pieces.dropWhile fun piece => !piece.isText).rdropWhile fun piece => !piece.isText

/-- Spaces and line breaks, and at least one of the latter. -/
def IsGap (chars : List Char) : Prop :=
  '\n' ∈ chars ∧ ∀ char ∈ chars, char = ' ' ∨ char = '\n'

/-- What is written from the first text of a header to `end`, with the texts of a body in
between if there are any. -/
inductive Separated (header body : List Piece) : List Char → Prop where
  | empty {gap : List Char} (hblank : IsBlank body) (hgap : IsGap gap) :
      Separated header body (write 0 (spoken header) ++ gap ++ "end".toList)
  | full {gap gap' : List Char} (hspeaks : ¬ IsBlank body) (hgap : IsGap gap)
      (hgap' : IsGap gap') :
      Separated header body
        (write 0 (spoken header) ++ gap ++ write 0 (spoken body) ++ gap' ++ "end".toList)

/-! ## Blank pieces and texts -/

@[simp] theorem isBlank_append
    {front back : List Piece} : IsBlank (front ++ back) ↔ IsBlank front ∧ IsBlank back := by
  simp only [IsBlank, List.mem_append, not_or]
  exact forall_and

@[simp] theorem isBlank_newline (indent : Nat) : IsBlank [.newline indent] := by
  simp [IsBlank]

theorem isText_iff {piece : Piece} : piece.isText = true ↔ ∃ content, piece = .text content := by
  cases piece with
  | text content => exact ⟨fun _ => ⟨content, rfl⟩, fun _ => rfl⟩
  | space => exact ⟨nofun, nofun⟩
  | newline indent => exact ⟨nofun, nofun⟩

theorem isBlank_iff {pieces : List Piece} :
    IsBlank pieces ↔ ∀ piece ∈ pieces, piece.isText = false := by
  constructor
  · intro hblank piece hpiece
    by_contra htext
    rw [Bool.not_eq_false] at htext
    obtain ⟨content, rfl⟩ := isText_iff.1 htext
    exact hblank content hpiece
  · intro hpieces content hcontent
    cases hpieces _ hcontent

theorem find?_of_isBlank
    {front : List Piece} (hfront : IsBlank front) (content : String) (back : List Piece) :
    (front ++ .text content :: back).find? Piece.isText = some (.text content) := by
  have hnone : front.find? Piece.isText = none := by
    rw [List.find?_eq_none]
    intro piece hpiece
    rw [isBlank_iff.1 hfront piece hpiece]
    exact Bool.false_ne_true
  rw [List.find?_append, hnone, List.find?_cons_of_pos rfl]
  rfl

/-- Pieces with a text among them are blank up to the first text and from the last one on. -/
theorem exists_spoken
    {pieces : List Piece} (hspeaks : ¬ IsBlank pieces) :
    ∃ lead trail,
      pieces = lead ++ spoken pieces ++ trail ∧ IsBlank lead ∧ IsBlank trail ∧
      (∃ first rest, spoken pieces = .text first :: rest) ∧
      ∃ front last, spoken pieces = front ++ [.text last] := by
  let blank := fun piece : Piece => !piece.isText
  let lead := pieces.takeWhile blank
  let behind := pieces.dropWhile blank
  let trail := behind.rtakeWhile blank
  have hpieces : pieces = lead ++ behind := List.takeWhile_append_dropWhile.symm
  have hbehind : behind = spoken pieces ++ trail := List.rdropWhile_append_rtakeWhile.symm
  have hlead : IsBlank lead := by
    rw [isBlank_iff]
    intro piece hpiece
    simpa [blank] using List.mem_takeWhile_imp hpiece
  have htrail : IsBlank trail := by
    rw [isBlank_iff]
    intro piece hpiece
    simpa [blank] using List.mem_rtakeWhile_imp hpiece
  have hne : spoken pieces ≠ [] := by
    -- A text is dropped at neither end.
    intro hnil
    refine hspeaks ?_
    rw [hpieces, hbehind, hnil, List.nil_append, isBlank_append]
    exact ⟨hlead, htrail⟩
  obtain ⟨piece, rest, hfirst⟩ := List.exists_cons_of_ne_nil hne
  have hpiece : piece.isText = true := by
    have hhead := List.head?_dropWhile_not blank pieces
    have hcons : pieces.dropWhile blank = piece :: (rest ++ trail) := by
      rw [← List.cons_append, ← hfirst]
      exact hbehind
    rw [hcons] at hhead
    simpa [blank] using hhead
  have hlast : ¬ blank ((spoken pieces).getLast hne) = true :=
    List.rdropWhile_last_not blank behind hne
  refine ⟨lead, trail, ?_, hlead, htrail, ?_, ?_⟩
  · rw [List.append_assoc, ← hbehind]
    exact hpieces
  · obtain ⟨content, rfl⟩ := isText_iff.1 hpiece
    exact ⟨content, rest, hfirst⟩
  · obtain ⟨content, hcontent⟩ := isText_iff.1 (by simpa [blank] using hlast)
    refine ⟨(spoken pieces).dropLast, content, ?_⟩
    rw [← hcontent]
    exact (List.dropLast_append_getLast hne).symm

/-- The first text of what is spoken is the first text. -/
theorem spoken_first
    {opening : List Piece} (hopening : IsBlank opening) (content : String) (rest : List Piece) :
    ∃ behind, spoken (opening ++ .text content :: rest) = .text content :: behind := by
  have hspeaks : ¬ IsBlank (opening ++ .text content :: rest) := by
    intro hblank
    exact hblank content (by simp)
  obtain ⟨lead, trail, hsplit, hlead, -, ⟨first, behind, hfirst⟩, -⟩ := exists_spoken hspeaks
  have hfind := find?_of_isBlank hopening content rest
  rw [hsplit, hfirst, List.append_assoc, List.cons_append, find?_of_isBlank hlead] at hfind
  cases hfind
  exact ⟨behind, hfirst⟩

/-! ## Writing between texts -/

/-- What is written in front of a text does not depend on what comes behind.  Blank pieces
are written as spaces and line breaks. -/
theorem exists_above
    (front : List Piece) (pending : Nat) (content : String) :
    ∃ above,
      (∀ back, write pending (front ++ .text content :: back) =
        above ++ write 0 (.text content :: back)) ∧
      (IsBlank front → ∀ char ∈ above, char = ' ' ∨ char = '\n') ∧
      ((∃ indent, .newline indent ∈ front) → '\n' ∈ above) := by
  have hspaces : ∀ count, ∀ char ∈ spaces count, char = ' ' ∨ char = '\n' :=
    fun count char hchar => .inl (List.eq_of_mem_replicate hchar)
  induction front generalizing pending with
  | nil =>
      by_cases hbreak : content.toList.head? = some '\n'
      · exact ⟨[], by simp [write, hbreak], by simp, by simp⟩
      · exact ⟨spaces pending, by simp [write, hbreak, spaces], fun _ => hspaces pending, by simp⟩
  | cons piece front ih =>
      have hfront : IsBlank (piece :: front) → IsBlank front := fun hblank content hmem =>
        hblank content (List.mem_cons_of_mem _ hmem)
      cases piece with
      | text said =>
          obtain ⟨above, hwrite, -, hbreak⟩ := ih 0
          refine ⟨(if said.toList.head? = some '\n' then [] else spaces pending) ++
            (said.toList ++ above), ?_, ?_, ?_⟩
          · intro back
            simp [write, hwrite]
          · intro hblank
            exact absurd List.mem_cons_self (hblank said)
          · rintro ⟨indent, hindent⟩
            have hrest : '\n' ∈ above := hbreak ⟨indent, by simpa using hindent⟩
            simp [hrest]
      | space =>
          obtain ⟨above, hwrite, hchars, hbreak⟩ := ih 0
          refine ⟨spaces pending ++ ' ' :: above, ?_, ?_, ?_⟩
          · intro back
            simp [write, hwrite]
          · intro hblank
            rw [List.forall_mem_append, List.forall_mem_cons]
            exact ⟨hspaces pending, .inl rfl, hchars (hfront hblank)⟩
          · rintro ⟨indent, hindent⟩
            have hrest : '\n' ∈ above := hbreak ⟨indent, by simpa using hindent⟩
            simp [hrest]
      | newline indent =>
          obtain ⟨above, hwrite, hchars, -⟩ := ih indent
          refine ⟨'\n' :: above, ?_, ?_, ?_⟩
          · intro back
            simp [write, hwrite]
          · intro hblank
            rw [List.forall_mem_cons]
            exact ⟨.inr rfl, hchars (hfront hblank)⟩
          · exact fun _ => List.mem_cons_self

theorem exists_gap
    {blank : List Piece} (hblank : IsBlank blank) (hbreak : ∃ indent, .newline indent ∈ blank)
    (content : String) :
    ∃ gap, IsGap gap ∧ ∀ back,
      write 0 (blank ++ .text content :: back) = gap ++ write 0 (.text content :: back) := by
  obtain ⟨gap, hwrite, hchars, hgap⟩ := exists_above blank 0 content
  exact ⟨gap, ⟨hgap hbreak, hchars hblank⟩, hwrite⟩

theorem write_spoken
    {pieces front : List Piece} {last : String} (hlast : spoken pieces = front ++ [.text last])
    (back : List Piece) :
    write 0 (spoken pieces ++ back) = write 0 (spoken pieces) ++ write 0 back := by
  obtain ⟨above, hwrite, -, -⟩ := exists_above front 0 last
  have hback := hwrite back
  have hnil := hwrite []
  rw [hlast, List.append_assoc, List.singleton_append, hback, hnil]
  simp [write, spaces]

theorem write_end (back : List Piece) :
    write 0 (.text "end" :: back) = "end".toList ++ write 0 back := by
  simp [write, spaces]

/-! ## Definitions -/

/-- A header is written down to its last text, and the rest of it goes with what comes
behind. -/
theorem exists_header
    {header : List Piece} (hheader : ¬ IsBlank header) (before : List Piece) :
    ∃ above trail, IsBlank trail ∧ ∀ back,
      write 0 (before ++ (header ++ back)) =
        above ++ (write 0 (spoken header) ++ write 0 (trail ++ back)) := by
  obtain ⟨lead, trail, hsplit, -, htrail, ⟨first, rest, hfirst⟩, front, last, hlast⟩ :=
    exists_spoken hheader
  obtain ⟨above, habove, -, -⟩ := exists_above (before ++ lead) 0 first
  refine ⟨above, trail, htrail, ?_⟩
  intro back
  have hwhole : before ++ (header ++ back) =
      (before ++ lead) ++ .text first :: (rest ++ (trail ++ back)) := by
    rw [hsplit, hfirst]
    simp only [List.append_assoc, List.cons_append]
  rw [hwhole, habove, ← List.cons_append, ← hfirst, write_spoken hlast]

/-- If the body has a line break in front of its texts, then a definition is written with
line breaks between its parts. -/
theorem exists_separated
    {header body : List Piece} (hheader : ¬ IsBlank header)
    (hbody : ∀ lead content rest, body = lead ++ .text content :: rest →
      ∃ indent, .newline indent ∈ lead)
    (before : List Piece) (own : Nat) :
    ∃ above chars, Separated header body chars ∧ ∀ back,
      write 0 (before ++ (header ++ (body ++ .newline own :: .text "end" :: back))) =
        above ++ chars ++ write 0 back := by
  obtain ⟨above, trail, htrail, hupTo⟩ := exists_header hheader before
  by_cases hblank : IsBlank body
  · have hgap : IsBlank (trail ++ body ++ [.newline own]) := by simp [htrail, hblank]
    obtain ⟨gap, hgap, hwrite⟩ := exists_gap hgap ⟨own, by simp⟩ "end"
    refine ⟨above, _, .empty hblank hgap, ?_⟩
    intro back
    have hmiddle : trail ++ (body ++ .newline own :: .text "end" :: back) =
        (trail ++ body ++ [.newline own]) ++ .text "end" :: back := by
      simp only [List.append_assoc, List.singleton_append]
    rw [hupTo, hmiddle, hwrite, write_end]
    simp only [List.append_assoc]
  · obtain ⟨lead, trail', hsplit, hlead, htrail', ⟨first, rest, hfirst⟩, front, last, hlast⟩ :=
      exists_spoken hblank
    have hfront : body = lead ++ .text first :: (rest ++ trail') := by
      rw [← List.cons_append, ← hfirst, ← List.append_assoc]
      exact hsplit
    obtain ⟨indent, hindent⟩ := hbody lead first (rest ++ trail') hfront
    have hahead : IsBlank (trail ++ lead) := by simp [htrail, hlead]
    have hbehind : IsBlank (trail' ++ [.newline own]) := by simp [htrail']
    obtain ⟨gap, hgap, hwrite⟩ := exists_gap hahead ⟨indent, by simp [hindent]⟩ first
    obtain ⟨gap', hgap', hwrite'⟩ := exists_gap hbehind ⟨own, by simp⟩ "end"
    refine ⟨above, _, .full hblank hgap hgap', ?_⟩
    intro back
    have hmiddle : trail ++ (body ++ .newline own :: .text "end" :: back) =
        (trail ++ lead) ++ .text first :: (rest ++ (trail' ++ [.newline own] ++
          .text "end" :: back)) := by
      rw [hfront]
      simp only [List.append_assoc, List.cons_append, List.nil_append]
    rw [hupTo, hmiddle, hwrite, ← List.cons_append, ← hfirst, write_spoken hlast, hwrite',
      write_end]
    simp only [List.append_assoc]

theorem Separated.ends
    {header body rest : List Piece} {keyword : String} {chars : List Char}
    (hseparated : Separated header body chars) (hfirst : spoken header = .text keyword :: rest)
    {first : Char} (hkeyword : keyword.toList.head? = some first) :
    chars.head? = some first ∧ chars.getLast? = some 'd' := by
  have hwrite : write 0 (spoken header) = keyword.toList ++ write 0 rest := by
    simp [hfirst, write, spaces]
  have hend : "end".toList = ['e', 'n', 'd'] := rfl
  cases hseparated with
  | empty => simp [hwrite, List.head?_append, hkeyword, hend, List.getLast?_append]
  | full => simp [hwrite, List.head?_append, hkeyword, hend, List.getLast?_append]

/-! ## Definitions in a layout -/

/-- Header, body and `end` of a definition are a part of the layout, and of the written text
and the trimmed text.  The last text of the header, those of the body and `end` are on
different lines, and a line break is right behind `end`. -/
structure SetApart (settings : Settings) (whole : Doc) (before header body : List Piece)
    (own base : Nat) (after : List Piece) : Prop where
  layout : pieces settings whole =
    before ++ (header ++ (body ++ .newline own :: .text "end" :: .newline base :: after))
  written : ∃ above chars rest kept below,
    Separated header body chars ∧
    write 0 (before ++ (header ++ (body ++ [.newline own, .text "end"]))) = above ++ chars ∧
    (render settings whole).toList = above ++ chars ++ '\n' :: rest ∧
    (tidy (render settings whole)).toList = kept ++ chars ++ '\n' :: below ∧ kept <:+ above

theorem SetApart.congr
    {settings : Settings} {whole whole' : Doc} {before header body : List Piece} {own base : Nat}
    {after : List Piece} (hpieces : pieces settings whole = pieces settings whole')
    (hapart : SetApart settings whole' before header body own base after) :
    SetApart settings whole before header body own base after := by
  have hrender : render settings whole = render settings whole' := by rw [render, render, hpieces]
  constructor
  · rw [hpieces]
    exact hapart.layout
  · rw [hrender]
    exact hapart.written

/-- What is left of line breaks at the end of a text is one line break. -/
theorem exists_below (rest : List Char) :
    ∃ below, (('\n' :: rest).reverse.dropWhile (· == '\n')).reverse ++ ['\n'] = '\n' :: below := by
  have hstart : (('\n' :: rest).reverse.dropWhile (· == '\n')).reverse <+: '\n' :: rest :=
    List.rdropWhile_prefix _ _
  generalize (('\n' :: rest).reverse.dropWhile (· == '\n')).reverse = kept at hstart
  cases kept with
  | nil => exact ⟨[], rfl⟩
  | cons char kept =>
      rw [List.cons_prefix_cons] at hstart
      exact ⟨kept ++ ['\n'], by rw [hstart.1, List.cons_append]⟩

theorem setApart_of_layout
    {settings : Settings} {whole : Doc} {before opening rest body after : List Piece}
    {keyword : String} {own base : Nat} {first : Char}
    (hlayout : pieces settings whole =
      before ++ ((opening ++ .text keyword :: rest) ++
        (body ++ .newline own :: .text "end" :: .newline base :: after)))
    (hopening : IsBlank opening)
    (hkeyword : keyword.toList.head? = some first) (hplain : first ≠ '\n')
    (hbody : ∀ lead content rest, body = lead ++ .text content :: rest →
      ∃ indent, .newline indent ∈ lead) :
    SetApart settings whole before (opening ++ .text keyword :: rest) body own base after := by
  have hheader : ¬ IsBlank (opening ++ .text keyword :: rest) := fun hblank =>
    hblank keyword (by simp)
  obtain ⟨above, chars, hseparated, hwrite⟩ := exists_separated hheader hbody before own
  obtain ⟨behind, hspoken⟩ := spoken_first hopening keyword rest
  -- The definition starts with its keyword and ends with `end`, so trimming stops there.
  obtain ⟨hhead, hlast⟩ := hseparated.ends hspoken hkeyword
  have hrender : render settings whole =
      String.ofList (above ++ chars ++ '\n' :: write base after) := by
    rw [render, hlayout, hwrite, write]
  obtain ⟨below, hbelow⟩ := exists_below (write base after)
  refine ⟨hlayout, above, chars, write base after, _, below, hseparated, ?_, ?_, ?_,
    List.dropWhile_suffix (· == '\n')⟩
  · rw [hwrite, write, List.append_nil]
  · rw [hrender, String.toList_ofList]
  · rw [hrender, tidy_core hhead hlast hplain (by decide), hbelow]

end Layout

end TreeFormat
