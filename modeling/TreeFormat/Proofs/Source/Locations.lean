import Mathlib.Data.List.Basic
import TreeFormat.Source.Location
import TreeFormat.Text.Bytes
import TreeFormat.Tree.Load

/-!
# What a location covers

A location made from a line and a column covers one whole character of its text, or
nothing at the end of the text, whatever the line and the column are.  If they are those
of a byte of the text, then the character is the one that holds this byte
(`Location.ofLineColumn_covers`).

Column 0 does not lead to the line before.  It stands for column 1, so behind a line break
a location covers what comes after the break and not the break itself
(`Location.ofLineColumn_zero`).
-/

namespace TreeFormat

open Text (byteLength)

/-! ## Boundaries -/

/-- Whether an offset is between two characters of a text or at one of its ends. -/
def isBoundary : List Char → Nat → Bool
  | _, 0 => true
  | [], _ + 1 => false
  | c :: rest, offset + 1 =>
    decide (c.utf8Size ≤ offset + 1) && isBoundary rest (offset + 1 - c.utf8Size)

/-- Steps back from an offset byte by byte until it comes to a boundary.  There is no
step from the start of the text. -/
def stepBack (text : List Char) : Nat → Option Nat
  | 0 => if isBoundary text 0 then some 0 else none
  | offset + 1 => if isBoundary text (offset + 1) then some (offset + 1) else stepBack text offset

@[simp] theorem isBoundary_zero (text : List Char) : isBoundary text 0 = true := by
  cases text <;> rfl

theorem isBoundary_append (front back : List Char) (offset : Nat) :
    isBoundary (front ++ back) (byteLength front + offset) = isBoundary back offset := by
  induction front with
  | nil => simp
  | cons c front ih =>
      obtain ⟨size, hsize⟩ := Nat.exists_eq_succ_of_ne_zero (Nat.ne_of_gt c.utf8Size_pos)
      have hlength : byteLength (c :: front) + offset = size + (byteLength front + offset) + 1 := by
        rw [Text.byteLength_cons, hsize]
        omega
      have hrest : size + (byteLength front + offset) + 1 - c.utf8Size =
          byteLength front + offset := by
        rw [hsize]
        omega
      have hle : c.utf8Size ≤ size + (byteLength front + offset) + 1 := by
        rw [hsize]
        omega
      rw [hlength, List.cons_append, isBoundary, hrest, ih, decide_eq_true hle, Bool.true_and]

/-- There is no boundary inside a character. -/
theorem isBoundary_inside
    {c : Char} {offset : Nat} (hpos : 0 < offset) (hlt : offset < c.utf8Size) (rest : List Char) :
    isBoundary (c :: rest) offset = false := by
  obtain ⟨below, rfl⟩ := Nat.exists_eq_succ_of_ne_zero (Nat.ne_of_gt hpos)
  rw [isBoundary, decide_eq_false (by omega), Bool.false_and]

/-- The bytes of a character lead back to its start. -/
theorem stepBack_inside
    {c : Char} {offset : Nat} (hlt : offset < c.utf8Size) (front back : List Char) :
    stepBack (front ++ c :: back) (byteLength front + offset) = some (byteLength front) := by
  induction offset with
  | zero =>
      have hstart : isBoundary (front ++ c :: back) (byteLength front) = true := by
        simpa using isBoundary_append front (c :: back) 0
      rw [Nat.add_zero]
      cases hlength : byteLength front with
      | zero => simp [stepBack]
      | succ length => rw [stepBack, ← hlength, if_pos hstart]
  | succ offset ih =>
      have hinside : isBoundary (front ++ c :: back) (byteLength front + offset + 1) = false := by
        rw [Nat.add_assoc, isBoundary_append]
        exact isBoundary_inside (Nat.succ_pos offset) hlt back
      rw [← Nat.add_assoc, stepBack, hinside, if_neg Bool.false_ne_true]
      exact ih (by omega)

theorem stepBack_end (text : List Char) :
    stepBack text (byteLength text) = some (byteLength text) := by
  have hend : isBoundary text (byteLength text) = true := by
    simpa using isBoundary_append text [] 0
  cases hlength : byteLength text with
  | zero => simp [stepBack]
  | succ length => rw [stepBack, ← hlength, if_pos hend]

/-! ## Spans of characters -/

/-- The span of the first character behind the front of a text, or the empty span if the
text ends there. -/
def spanBehind (front back : List Char) : Span :=
  ⟨byteLength front, byteLength (front ++ back.take 1)⟩

namespace Span

/-- A span covers one whole character of a text, or nothing at the end of the text. -/
structure IsWhole (text : List Char) (span : Span) : Prop where
  ordered : span.start ≤ span.stop
  inside : span.stop ≤ byteLength text
  start_boundary : isBoundary text span.start = true
  stop_boundary : isBoundary text span.stop = true
  empty_iff : span.start = span.stop ↔ span.start = byteLength text
  covers : span.start ≠ span.stop → ∃ front c back,
    text = front ++ c :: back ∧ span = ⟨byteLength front, byteLength front + c.utf8Size⟩

/-- A span is that of the character of a text that holds the byte at an offset. -/
def Holds (text : List Char) (offset : Nat) (span : Span) : Prop :=
  ∃ front c back, text = front ++ c :: back ∧
    span = ⟨byteLength front, byteLength front + c.utf8Size⟩ ∧
    byteLength front ≤ offset ∧ offset < byteLength front + c.utf8Size

end Span

theorem spanBehind_cons (front : List Char) (c : Char) (back : List Char) :
    spanBehind front (c :: back) = ⟨byteLength front, byteLength front + c.utf8Size⟩ := by
  simp [spanBehind]

theorem isWhole_spanBehind (front back : List Char) :
    (spanBehind front back).IsWhole (front ++ back) := by
  cases back with
  | nil =>
      have hspan : spanBehind front [] = ⟨byteLength front, byteLength front⟩ := by
        simp [spanBehind]
      have hend : isBoundary (front ++ []) (byteLength front) = true := by
        simpa using isBoundary_append front [] 0
      rw [hspan]
      exact ⟨Nat.le_refl _, by simp, hend, hend, by simp, fun hne => absurd rfl hne⟩
  | cons c back =>
      have hpos := c.utf8Size_pos
      have hstart : isBoundary (front ++ c :: back) (byteLength front) = true := by
        simpa using isBoundary_append front (c :: back) 0
      have hstop : isBoundary (front ++ c :: back) (byteLength front + c.utf8Size) = true := by
        simpa using isBoundary_append (front ++ [c]) back 0
      have hlength : byteLength (front ++ c :: back) =
          byteLength front + (c.utf8Size + byteLength back) := by
        simp
      rw [spanBehind_cons]
      refine ⟨by simp, ?_, hstart, hstop, ?_, fun _ => ⟨front, c, back, rfl, rfl⟩⟩
      · show byteLength front + c.utf8Size ≤ byteLength (front ++ c :: back)
        omega
      · show byteLength front = byteLength front + c.utf8Size ↔
          byteLength front = byteLength (front ++ c :: back)
        omega

/-- The search for a character stops behind all characters that end at the offset or in
front of it. -/
theorem exists_characterSpan
    {offset start : Nat} (hstart : start ≤ offset) (text : List Char) :
    ∃ front back, text = front ++ back ∧
      characterSpan offset start text =
        ⟨start + byteLength front, start + byteLength (front ++ back.take 1)⟩ ∧
      start + byteLength front ≤ offset ∧
      (back = [] ∨ offset < start + byteLength (front ++ back.take 1)) := by
  induction text generalizing start with
  | nil => exact ⟨[], [], rfl, rfl, by simpa using hstart, .inl rfl⟩
  | cons c rest ih =>
      rw [characterSpan]
      by_cases hhere : offset < start + c.utf8Size
      · rw [if_pos hhere]
        exact ⟨[], c :: rest, rfl, by simp, by simpa using hstart, .inr (by simpa using hhere)⟩
      · rw [if_neg hhere]
        obtain ⟨front, back, rfl, hspan, hle, hback⟩ := ih (Nat.le_of_not_lt hhere)
        refine ⟨c :: front, back, rfl, ?_, ?_, ?_⟩
        · simp [hspan, Nat.add_assoc]
        · simpa [Nat.add_assoc] using hle
        · simpa [Nat.add_assoc] using hback

/-- The character of an offset is found by stepping back from it, or from the end of the
text if the offset is behind it. -/
theorem characterSpan_spec (offset : Nat) (text : List Char) :
    ∃ front back, text = front ++ back ∧ characterSpan offset 0 text = spanBehind front back ∧
      stepBack text (min offset (byteLength text)) = some (byteLength front) ∧
      (offset < byteLength text → (characterSpan offset 0 text).Holds text offset) := by
  obtain ⟨front, back, rfl, hspan, hle, hback⟩ := exists_characterSpan (Nat.zero_le offset) text
  rw [Nat.zero_add, Nat.zero_add] at hspan
  rw [Nat.zero_add] at hle
  refine ⟨front, back, rfl, hspan, ?_⟩
  cases back with
  | nil =>
      rw [List.append_nil, Nat.min_eq_right hle]
      exact ⟨stepBack_end front, fun hlt => absurd hle (Nat.not_le.2 hlt)⟩
  | cons c back =>
      have hlt : offset < byteLength front + c.utf8Size := by
        simpa using hback
      have hinside : offset ≤ byteLength (front ++ c :: back) := by
        rw [Text.byteLength_append, Text.byteLength_cons]
        omega
      have hahead : offset - byteLength front < c.utf8Size := by
        omega
      have hsteps := stepBack_inside hahead front back
      rw [Nat.add_sub_cancel' hle] at hsteps
      rw [Nat.min_eq_left hinside]
      exact ⟨hsteps, fun _ => ⟨front, c, back, rfl, hspan.trans (spanBehind_cons front c back),
        hle, hlt⟩⟩

/-! ## Lines -/

/-- The lines of a text, each with the line break that ends it. -/
def newlineLines : List Char → List (List Char)
  | [] => []
  | c :: rest =>
    if c = '\n' then [c] :: newlineLines rest
    else
      match newlineLines rest with
      | [] => [[c]]
      | line :: lines => (c :: line) :: lines

/-- The byte at an offset of a text is on a line and in a column of it, both counted from
one.  The column counts bytes. -/
inductive LiesAt (text : List Char) : Nat → Nat → Nat → Prop where
  | intro {above below : List (List Char)} {line : List Char} {ahead : Nat}
      (hlines : newlineLines text = above ++ line :: below) (hahead : ahead < byteLength line) :
      LiesAt text (byteLength above.flatten + ahead) (above.length + 1) (ahead + 1)

@[simp] theorem flatten_newlineLines (text : List Char) : (newlineLines text).flatten = text := by
  induction text with
  | nil => rfl
  | cons c rest ih =>
      rw [newlineLines]
      split
      · rw [List.flatten_cons, ih, List.singleton_append]
      · split
        · next hrest =>
            rw [hrest] at ih
            rw [← ih]
            rfl
        · next line lines hrest =>
            rw [hrest, List.flatten_cons] at ih
            rw [List.flatten_cons, List.cons_append, ih]

/-- The bytes of the first lines are counted line by line. -/
theorem bytesOfLines_eq (count : Nat) (text : List Char) :
    bytesOfLines count text = byteLength ((newlineLines text).take count).flatten := by
  induction text generalizing count with
  | nil => cases count <;> rfl
  | cons c rest ih =>
      cases count with
      | zero => rfl
      | succ count =>
          rw [bytesOfLines, newlineLines]
          by_cases hbreak : c = '\n'
          · rw [if_pos hbreak, if_pos hbreak, ih, List.take_succ_cons, List.flatten_cons,
              Text.byteLength_append, Text.byteLength_cons, Text.byteLength_nil, Nat.add_zero]
          · rw [if_neg hbreak, if_neg hbreak, ih]
            cases newlineLines rest with
            | nil => simp
            | cons line lines => simp

/-- Every byte of a row of lines is on one of them. -/
theorem exists_line_of_lt
    {lines : List (List Char)} {offset : Nat} (hoffset : offset < byteLength lines.flatten) :
    ∃ above line below ahead, lines = above ++ line :: below ∧ ahead < byteLength line ∧
      offset = byteLength above.flatten + ahead := by
  induction lines generalizing offset with
  | nil => simp at hoffset
  | cons line lines ih =>
      rw [List.flatten_cons, Text.byteLength_append] at hoffset
      by_cases hhere : offset < byteLength line
      · exact ⟨[], line, lines, offset, rfl, hhere, by simp⟩
      · obtain ⟨above, found, below, ahead, rfl, hahead, hrest⟩ :=
          @ih (offset - byteLength line) (by omega)
        refine ⟨line :: above, found, below, ahead, rfl, hahead, ?_⟩
        rw [List.flatten_cons, Text.byteLength_append]
        omega

theorem exists_liesAt {text : List Char} {offset : Nat} (hoffset : offset < byteLength text) :
    ∃ line column, LiesAt text offset line column := by
  rw [← flatten_newlineLines text] at hoffset
  obtain ⟨above, line, below, ahead, hlines, hahead, rfl⟩ := exists_line_of_lt hoffset
  exact ⟨above.length + 1, ahead + 1, .intro hlines hahead⟩

theorem LiesAt.offset_eq
    {text : List Char} {offset line column : Nat} (hlies : LiesAt text offset line column) :
    bytesOfLines (line - 1) text + (column - 1) = offset ∧ offset < byteLength text := by
  obtain ⟨hlines, hahead⟩ := hlies
  rename_i above below found ahead
  have htext := congrArg (fun lines => byteLength lines.flatten) hlines
  simp only [flatten_newlineLines, List.flatten_append, List.flatten_cons,
    Text.byteLength_append] at htext
  constructor
  · rw [bytesOfLines_eq, hlines, Nat.add_sub_cancel, Nat.add_sub_cancel,
      List.take_left]
  · omega

/-! ## Line breaks -/

theorem exists_break
    {text : List Char} {count : Nat} (hcount : count < text.count '\n') :
    ∃ front back, text = front ++ '\n' :: back ∧ front.count '\n' = count := by
  induction text generalizing count with
  | nil => simp at hcount
  | cons c rest ih =>
      by_cases hbreak : c = '\n'
      · subst hbreak
        rw [List.count_cons_self] at hcount
        cases count with
        | zero => exact ⟨[], rest, rfl, rfl⟩
        | succ count =>
            obtain ⟨front, back, rfl, hfront⟩ := ih (Nat.lt_of_succ_lt_succ hcount)
            exact ⟨'\n' :: front, back, rfl, by rw [List.count_cons_self, hfront]⟩
      · rw [List.count_cons_of_ne hbreak] at hcount
        obtain ⟨front, back, rfl, hfront⟩ := ih hcount
        exact ⟨c :: front, back, rfl, by rw [List.count_cons_of_ne hbreak, hfront]⟩

/-- The line behind a line break starts there. -/
theorem bytesOfLines_break (front back : List Char) :
    bytesOfLines (front.count '\n' + 1) (front ++ '\n' :: back) =
      byteLength (front ++ ['\n']) := by
  induction front with
  | nil => cases back <;> rfl
  | cons c front ih =>
      rw [List.cons_append, bytesOfLines, List.cons_append, Text.byteLength_cons, ← ih]
      by_cases hbreak : c = '\n'
      · rw [if_pos hbreak, hbreak, List.count_cons_self]
      · rw [if_neg hbreak, List.count_cons_of_ne hbreak]

theorem characterSpan_append (start : Nat) (front back : List Char) :
    characterSpan (start + byteLength front) start (front ++ back) =
      ⟨start + byteLength front, start + byteLength (front ++ back.take 1)⟩ := by
  induction front generalizing start with
  | nil =>
      cases back with
      | nil => rfl
      | cons c back => simp [characterSpan, c.utf8Size_pos]
  | cons c front ih =>
      have hbehind : ¬ start + byteLength (c :: front) < start + c.utf8Size := by
        rw [Text.byteLength_cons]
        omega
      rw [List.cons_append, characterSpan, if_neg hbehind]
      simpa [Nat.add_assoc] using ih (start + c.utf8Size)

/-- A place in column 0 is where the counting began, or right behind a line break. -/
theorem lineColumnAt_zero
    {offset line column start : Nat} {text : List Char}
    (hoffset : offset ≤ start + byteLength text)
    (hzero : (lineColumnAt offset line column start text).2 = 0) :
    (lineColumnAt offset line column start text).1 = line ∧ column = 0 ∧ offset ≤ start ∨
      ∃ front back, text = front ++ '\n' :: back ∧
        offset = start + byteLength (front ++ ['\n']) ∧
        (lineColumnAt offset line column start text).1 = line + front.count '\n' + 1 := by
  induction text generalizing line column start with
  | nil => exact .inl ⟨rfl, hzero, hoffset⟩
  | cons c rest ih =>
      rw [lineColumnAt] at hzero ⊢
      rw [Text.byteLength_cons, ← Nat.add_assoc] at hoffset
      by_cases hhere : offset ≤ start
      · rw [if_pos hhere] at hzero ⊢
        exact .inl ⟨rfl, hzero, hhere⟩
      · rw [if_neg hhere] at hzero ⊢
        right
        by_cases hbreak : c = '\n'
        · subst hbreak
          rw [if_pos rfl] at hzero ⊢
          have hsize : '\n'.utf8Size = 1 := rfl
          rw [hsize] at hoffset
          rcases ih hoffset hzero with ⟨hline, -, hle⟩ | ⟨front, back, rfl, rfl, hline⟩
          · refine ⟨[], rest, rfl, ?_, hline⟩
            simp only [List.nil_append, Text.byteLength_cons, Text.byteLength_nil, hsize]
            omega
          · refine ⟨'\n' :: front, back, rfl, ?_, ?_⟩
            · rw [List.cons_append, Text.byteLength_cons, hsize, Nat.add_assoc]
            · rw [hline, List.count_cons_self]
              omega
        · rw [if_neg hbreak] at hzero ⊢
          dsimp only at hzero ⊢
          rcases ih hoffset hzero with ⟨-, hcolumn, -⟩ | ⟨front, back, rfl, rfl, hline⟩
          · -- A byte of the line has been passed.
            have hpos := c.utf8Size_pos
            omega
          · refine ⟨c :: front, back, rfl, ?_, ?_⟩
            · rw [List.cons_append, Text.byteLength_cons, Nat.add_assoc]
            · rw [hline, List.count_cons_of_ne hbreak]

namespace Location

/-- A location covers one whole character of its text or nothing at its end.  It starts
where stepping back from the place of the line and the column leads to.  The place of a
byte leads to the character that holds the byte. -/
theorem ofLineColumn_covers (text path : String) :
    (∀ line column,
      let location := ofLineColumn text line column path
      let place := byteLength ((newlineLines text.toList).take (line - 1)).flatten + (column - 1)
      location.path = path ∧ location.span.IsWhole text.toList ∧
        stepBack text.toList (min place (byteLength text.toList)) = some location.span.start) ∧
    (∀ offset < byteLength text.toList, ∃ line column, LiesAt text.toList offset line column) ∧
    ∀ offset line column, LiesAt text.toList offset line column →
      (ofLineColumn text line column path).span.Holds text.toList offset := by
  refine ⟨?_, fun offset hoffset => exists_liesAt hoffset, ?_⟩
  · intro line column location place
    have hplace : bytesOfLines (line - 1) text.toList + (column - 1) = place := by
      rw [bytesOfLines_eq]
    obtain ⟨front, back, htext, hspan, hsteps, -⟩ := characterSpan_spec place text.toList
    have hlocation : location.span = spanBehind front back := by
      rw [← hspan, ← hplace]
      rfl
    refine ⟨rfl, ?_, ?_⟩
    · rw [hlocation, htext]
      exact isWhole_spanBehind front back
    · rw [hlocation]
      exact hsteps
  · intro offset line column hlies
    obtain ⟨hplace, hinside⟩ := hlies.offset_eq
    obtain ⟨-, -, -, -, -, hholds⟩ := characterSpan_spec offset text.toList
    rw [ofLineColumn, hplace]
    exact hholds hinside

/-- The second byte of a character on the second line. -/
theorem ofLineColumn_covers_inside :
    let text := "a\né"
    LiesAt text.toList 3 2 2 ∧ (ofLineColumn text 2 2 "").span = ⟨2, 4⟩ ∧
      (ofLineColumn text 2 2 "").span.Holds text.toList 3 := by
  intro text
  have hlies : LiesAt text.toList 3 2 2 := by
    have hlines : newlineLines text.toList = [['a', '\n']] ++ ['é'] :: [] := by decide
    have hahead : 1 < byteLength ['é'] := by decide
    exact .intro hlines hahead
  exact ⟨hlies, by decide, (ofLineColumn_covers text "").2.2 3 2 2 hlies⟩

theorem ofLineColumn_break (front back : List Char) {text : String}
    (htext : text.toList = front ++ '\n' :: back) (path : String) :
    ofLineColumn text (front.count '\n' + 2) 0 path =
      ⟨spanBehind (front ++ ['\n']) back, path⟩ := by
  have hspan := characterSpan_append 0 (front ++ ['\n']) back
  simp only [Nat.zero_add, List.append_assoc, List.singleton_append] at hspan
  have hplace : bytesOfLines (front.count '\n' + 2 - 1) text.toList + (0 - 1) =
      byteLength (front ++ ['\n']) := by
    rw [htext, show front.count '\n' + 2 - 1 = front.count '\n' + 1 from rfl, bytesOfLines_break,
      Nat.zero_sub, Nat.add_zero]
  rw [ofLineColumn, hplace, htext, hspan, spanBehind]
  simp

/-- The location of a rejected text is that of its line and column, which are those of the
place where the reader stands. -/
theorem exists_refusal_of_loadTree
    {text path : String} {fault : LoadFault} (hload : loadTree text path = .error fault) :
    ∃ refusal, RootReader.readAll text.toList = .error refusal ∧
      fault.location = ofLineColumn text fault.line fault.column path ∧
      (fault.line, fault.column) =
        lineColumnAt (byteLength text.toList - refusal.unread) 1 0 0 text.toList := by
  rw [loadTree] at hload
  split at hload
  · cases hload
  · next objection unread hread =>
      cases hload
      exact ⟨⟨objection, unread⟩, hread, rfl, rfl⟩

/-- Column 0 of a line stands for column 1: it leads behind the line break that ends the
line before, and not to the break.  A text that is rejected where a line break was the
last thing to be read is labelled behind the break. -/
theorem ofLineColumn_zero (text path : String) :
    (∀ line, 2 ≤ line → line - 1 ≤ text.toList.count '\n' → ∃ front back,
      text.toList = front ++ '\n' :: back ∧ line = front.count '\n' + 2 ∧
      ofLineColumn text line 0 path = ⟨spanBehind (front ++ ['\n']) back, path⟩ ∧
      ofLineColumn text line 0 path = ofLineColumn text line 1 path) ∧
    ∀ fault, loadTree text path = .error fault → fault.column = 0 → 2 ≤ fault.line →
      ∃ refusal front back, RootReader.readAll text.toList = .error refusal ∧
        text.toList = front ++ '\n' :: back ∧
        byteLength text.toList - refusal.unread = byteLength (front ++ ['\n']) ∧
        fault.location = ⟨spanBehind (front ++ ['\n']) back, path⟩ := by
  constructor
  · intro line hline hcount
    obtain ⟨front, back, htext, hfront⟩ := @exists_break text.toList (line - 2) (by omega)
    obtain rfl : line = front.count '\n' + 2 := by omega
    exact ⟨front, back, htext, rfl, ofLineColumn_break front back htext path, rfl⟩
  · intro fault hload hcolumn hline
    obtain ⟨refusal, hread, hlocation, hplace⟩ := exists_refusal_of_loadTree hload
    have hinside : byteLength text.toList - refusal.unread ≤ 0 + byteLength text.toList := by
      omega
    have hplaces := @lineColumnAt_zero _ 1 0 0 _ hinside (by rw [← hplace]; exact hcolumn)
    rw [← hplace] at hplaces
    rcases hplaces with ⟨hfirst, -, -⟩ | ⟨front, back, htext, hend, hbreaks⟩
    · omega
    · refine ⟨refusal, front, back, hread, htext, by simpa using hend, ?_⟩
      have hlast : fault.line = front.count '\n' + 2 := by omega
      rw [hlocation, hcolumn, hlast]
      exact ofLineColumn_break front back htext path

/-- A text that ends behind its first line break.  The reader comes to the end of the text in
column 0 of the second line, and the label is empty and not on the line break. -/
theorem ofLineColumn_zero_end :
    let text := "\x7b\n"
    let fault : LoadFault := ⟨.text .endInObject, 2, 0, ⟨⟨2, 2⟩, "a.json"⟩⟩
    loadTree text "a.json" = .error fault ∧ ∃ front back, text.toList = front ++ '\n' :: back ∧
      fault.location = ⟨spanBehind (front ++ ['\n']) back, "a.json"⟩ := by
  have hload : loadTree "\x7b\n" "a.json" =
      .error ⟨.text .endInObject, 2, 0, ⟨⟨2, 2⟩, "a.json"⟩⟩ := by rfl
  intro text fault
  obtain ⟨-, front, back, -, htext, -, hlocation⟩ :=
    (ofLineColumn_zero text "a.json").2 fault hload rfl (by decide)
  exact ⟨hload, front, back, htext, hlocation⟩

/-- Column 0 of the second line covers the first character of that line.  The line break in
front of it is the second character of the first line. -/
theorem ofLineColumn_zero_behind_break :
    let behind := ofLineColumn "a\nb" 2 0 ""
    let ending := ofLineColumn "a\nb" 1 2 ""
    behind.span = ⟨2, 3⟩ ∧ behind.excerpt "a\nb" = "b" ∧
      ending.span = ⟨1, 2⟩ ∧ ending.excerpt "a\nb" = "\n" ∧ behind.span ≠ ending.span := by
  decide +kernel

end Location

end TreeFormat
