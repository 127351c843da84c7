import TreeFormat.Proofs.Layout.Gaps
import TreeFormat.Proofs.Layout.Shares
import TreeFormat.Proofs.Print.Statements

/-!
# Classes and modules take lines of their own

The header, the body and `end` of a class or a module are on different lines, whatever
stands around it and however wide the lines are (`Node.definition_set_apart`).

The breaks around `end` are forced, and they keep every group around the definition from
being flat.  The one in front of the body is not always there.  The definition leaves it
out if the first statement breaks the line itself, or prints nothing; then the next
statement is behind a line, which breaks because nothing around it is flat.
-/

namespace TreeFormat

open Layout

/-- The indented part of a definition: the body, on a line of its own if the definition
breaks the line. -/
def Node.indented (node : Node) (inner : Doc) : Doc :=
  if node.breaksBeforeBody then .hardLine ++ inner else inner

/-- The document of a class or a module consists of a header, a body and `end`. -/
structure Node.Encloses (node : Node) (doc header inner ending : Doc) : Prop where
  whole : doc = .concat [header, .indent (node.indented inner), ending, .literalLine]
  header : ∃ keyword breaks parts,
    node.keyword? = some keyword ∧ (breaks = [] ∨ breaks = [.hardLine]) ∧
    Print.Wraps header (.concat (breaks ++ .text keyword :: parts))
  ending : Print.Wraps ending (.hardLine ++ .text "end")

namespace Print

open Doc (join text concat hardLine literalLine line nil)

variable {node body : Node} {doc header inner ending : Doc} {bodyPath : List Nat}
  {width size own base column : Nat} {context : Context}

/-- A class or a module ends with a break to the root column. -/
theorem ends_with_literalLine
    (hkind : node.kind = .parser .classDef ∨ node.kind = .parser .moduleDef)
    (hprint : node.print.result = .ok doc) : ∃ front, doc = concat (front ++ [literalLine]) := by
  rcases hkind with hkind | hkind
  · cases Node.makes_of_print hkind hprint with
    | classDef => exact ⟨[_, _, _], rfl⟩
    | subclassDef => exact ⟨[_, _, _], rfl⟩
  · cases Node.makes_of_print hkind hprint with
    | moduleDef => exact ⟨[_, _, _], rfl⟩

theorem exists_encloses
    (hkind : node.kind = .parser .classDef ∨ node.kind = .parser .moduleDef)
    (hplace : node.bodyPath? = some bodyPath) (hbody : node.childAt bodyPath = .ok body)
    (hprint : node.print.result = .ok doc) :
    ∃ header inner ending, body.print.result = .ok inner ∧
      node.Encloses doc header inner ending := by
  obtain ⟨front, hlast⟩ := ends_with_literalLine hkind hprint
  obtain ⟨event, hdefines⟩ := Node.defines_of_print hplace hprint
  cases hdefines with
  | @intro keyword _ _ breaks parts closing header inner ending hkeyword hother _ _ hbreaks _ hheader
      hinner hending hclosing =>
      rw [hplace] at hother
      cases hother
      obtain ⟨child, hchild, hinner⟩ := hinner
      rw [hbody] at hchild
      cases hchild
      refine ⟨header, inner, ending, hinner, ?_,
        ⟨keyword, breaks, parts, hkeyword, hbreaks.imp_left And.left, hheader⟩, hending⟩
      rcases hclosing with rfl | rfl
      · -- Without the break at the end, `end` itself would be the break.
        have hsame : ending = literalLine := by
          have hparts := congrArg List.getLast? (Doc.concat.inj hlast)
          simpa using hparts
        rcases hending with rfl | rfl
        · cases hsame
        · cases hsame
      · rfl

/-! ## Layout of the parts -/

/-- The parts of a class or a module are laid out one after the other. -/
theorem lay_encloses
    (hencloses : node.Encloses doc header inner ending) (width size own base : Nat)
    (context : Context) (column : Nat) :
    ∃ keyword opening rest context' column',
      node.keyword? = some keyword ∧ IsBlank opening ∧
      PiecesOf header.leaves (opening ++ .text keyword :: rest) ∧
      (doc.lay width size own base .broken context column).2 =
        (opening ++ .text keyword :: rest) ++
          (((node.indented inner).lay width size (own + size) base .broken context' column').2 ++
            [.newline own, .text "end", .newline base]) := by
  obtain ⟨rfl, ⟨keyword, breaks, parts, hkeyword, hbreaks, hheader⟩, hending⟩ := hencloses
  let indented := Doc.indent (node.indented inner)
  let first := header.lay width size own base .broken
    (context.inFrontOfAll width own [indented, ending, literalLine]) column
  let second := indented.lay width size own base .broken
    (context.inFrontOfAll width own [ending, literalLine]) first.1
  let third := ending.lay width size own base .broken
    (context.inFrontOfAll width own [literalLine]) second.1
  obtain ⟨opening, hopening, rest, hfirst⟩ :
      ∃ opening, (opening = [] ∧ True ∨ opening = [.newline own]) ∧
        ∃ rest, first.2 = opening ++ .text keyword :: rest :=
    lay_header (Node.keyword_ne_empty hkeyword) (by simpa using hbreaks) hheader
  have hthird : third.2 = [.newline own, .text "end"] := lay_ending hending
  refine ⟨keyword, opening, rest, context.inFrontOfAll width own [ending, literalLine], first.1,
    hkeyword, ?_, ?_, ?_⟩
  · rcases hopening with ⟨rfl, -⟩ | rfl
    · simp [IsBlank]
    · exact isBlank_newline own
  · rw [← hfirst]
    exact becomes_lay header own base .broken _ column
  · calc
      _ = first.2 ++ (second.2 ++ (third.2 ++ [.newline base])) := rfl
      _ = _ := by
        rw [hfirst, hthird]
        rfl

/-- A line break at the front of pieces is in front of every text. -/
theorem newline_mem_of_first
    {indent : Nat} {tail lead rest : List Piece} {content : String}
    (hsplit : .newline indent :: tail = lead ++ .text content :: rest) :
    .newline indent ∈ lead := by
  cases lead with
  | nil => cases hsplit
  | cons piece lead =>
      obtain ⟨rfl, -⟩ := List.cons.inj hsplit
      exact List.mem_cons_self

/-- A statement that breaks the line itself is laid out behind a line break. -/
theorem lay_method
    {statement : Node} {part : Doc} (hkind : statement.kind = .parser .methodDef)
    (hprint : statement.print.result = .ok part) (width size own base : Nat) (context : Context)
    (column : Nat) :
    ∃ tail, (part.lay width size own base .broken context column).2 = .newline own :: tail := by
  have hkeyword : statement.keyword? = some "def " := by rw [Node.keyword?, hkind]
  obtain ⟨opening, hopening, middle, closing, hlaid, -⟩ :=
    Node.lay_definition hkeyword hprint width size own base context column
  rcases hopening with ⟨-, hmethod⟩ | rfl
  · exact absurd hkind hmethod
  · exact ⟨_, hlaid⟩

theorem intersperse_cons
    (separator part : Doc) (docs : List Doc) :
    ∃ behind, (part :: docs).intersperse separator = part :: behind ∧
      (behind = [] ∨ ∃ more, behind = separator :: more) := by
  cases docs with
  | nil => exact ⟨[], List.intersperse_singleton, .inl rfl⟩
  | cons next docs => exact ⟨_, List.intersperse_cons_cons, .inr ⟨_, rfl⟩⟩

/-- Where the first statement breaks the line itself or prints nothing, there is a line break
in front of the first text of the statements: its own, or the one of the line behind it. -/
theorem break_before_statements
    {first : Node} {part : Doc} {docs : List Doc} {lead rest : List Piece} {content : String}
    (hown : breaksOwnLine first = true) (hprint : first.print.result = .ok part)
    (hlay : (Doc.layAll width size ((part :: docs).intersperse line) own base .broken context
      column).2 = lead ++ .text content :: rest) :
    ∃ indent, .newline indent ∈ lead := by
  obtain ⟨behind, hrow, hbehind⟩ := intersperse_cons line part docs
  rw [hrow, Doc.layAll] at hlay
  simp only [breaksOwnLine, Bool.or_eq_true, beq_iff_eq] at hown
  rcases hown with hmethod | hvoid
  · obtain ⟨tail, htail⟩ := lay_method hmethod hprint width size own base
      (context.inFrontOfAll width own behind) column
    rw [htail] at hlay
    exact ⟨own, newline_mem_of_first hlay⟩
  · rw [Absolute.lay_of_isTextless (textless_of_voidStmt hvoid hprint)] at hlay
    rcases hbehind with rfl | ⟨more, rfl⟩
    · simp [Doc.layAll] at hlay
    · rw [Doc.layAll, Doc.lay] at hlay
      exact ⟨_, newline_mem_of_first hlay⟩

/-- In front of the first text of a body there is a line break. -/
theorem break_before_text
    (hplace : node.bodyPath? = some bodyPath) (hbody : node.childAt bodyPath = .ok body)
    (hkind : body.kind = .parser .bodyStmt) (hinner : body.print.result = .ok inner)
    {lead rest : List Piece} {content : String}
    (hlay : ((node.indented inner).lay width size own base .broken context column).2 =
      lead ++ .text content :: rest) :
    ∃ indent, .newline indent ∈ lead := by
  obtain ⟨docs, rfl, hdocs⟩ := Node.print_body hkind hinner
  cases hbreaks : node.breaksBeforeBody with
  | true =>
      have hindented : node.indented (join line docs) = concat [hardLine, join line docs] := by
        rw [Node.indented, hbreaks, if_pos rfl]
        rfl
      rw [hindented, Doc.lay, Doc.layAll, Doc.lay] at hlay
      exact ⟨_, newline_mem_of_first hlay⟩
  | false =>
      rw [Node.indented, hbreaks, if_neg Bool.false_ne_true, join, Doc.lay] at hlay
      generalize hpaths : body.childPaths [0] = paths at hdocs
      cases hdocs with
      | nil => simp [Doc.layAll] at hlay
      | @cons path part paths docs hpart hrest =>
          obtain ⟨first, hfirst, hprint⟩ := hpart
          have hhead : (body.childPaths [0])[0]? = some path := by
            rw [hpaths]
            rfl
          exact break_before_statements
            (Node.breaksOwnLine_of_first hplace hbody hbreaks hhead hfirst) hprint hlay

/-! ## Definitions in their surroundings -/

/-- A keyword starts with a letter. -/
theorem head_of_keyword
    {keyword : String} (hkeyword : node.keyword? = some keyword) :
    ∃ first, keyword.toList.head? = some first ∧ first ≠ '\n' := by
  unfold Node.keyword? at hkeyword
  split at hkeyword
  · cases hkeyword
    exact ⟨'c', by decide, by decide⟩
  · cases hkeyword
    exact ⟨'m', by decide, by decide⟩
  · cases hkeyword
    exact ⟨'d', by decide, by decide⟩
  · cases hkeyword

theorem exists_break_of_encloses
    (hencloses : node.Encloses doc header inner ending) :
    ∃ leaf ∈ doc.leaves, leaf.isBreak = true := by
  refine ⟨.literalLine, ?_, rfl⟩
  rw [hencloses.whole, Doc.leaves_concat]
  simp [Doc.leaves]

/-- A class or a module with a list of statements for a body is set apart in the layout, with
the leaves of its header and its body between others. -/
def KeepsApart (settings : Settings) (whole : Doc) (ahead header body behind : List Leaf) : Prop :=
  ∃ before head share own base after,
    PiecesOf ahead before ∧ PiecesOf header head ∧ PiecesOf body share ∧ PiecesOf behind after ∧
    SetApart settings whole before head share own base after

theorem keepsApart_of_encloses
    (hplace : node.bodyPath? = some bodyPath) (hbody : node.childAt bodyPath = .ok body)
    (hkind : body.kind = .parser .bodyStmt) (hinner : body.print.result = .ok inner)
    (hencloses : node.Encloses doc header inner ending) (settings : Settings)
    (outside : Doc.Surroundings) :
    KeepsApart settings (outside.fill doc) outside.leavesAhead header.leaves
      (node.indented inner).leaves outside.leavesBehind := by
  let width := settings.width
  let size := settings.indentSize
  let own := outside.indentAt size 0
  obtain ⟨before, base, context, column, after, hlay, hbefore, hafter⟩ :=
    exists_share (exists_break_of_encloses hencloses) width size outside 0 0 .atEnd 0
  obtain ⟨keyword, opening, rest, context', column', hkeyword, hopening, hheader, hparts⟩ :=
    lay_encloses hencloses width size own base context column
  obtain ⟨first, hfirst, hplain⟩ := head_of_keyword hkeyword
  let share :=
    ((node.indented inner).lay width size (own + size) base .broken context' column').2
  have hshare : PiecesOf (node.indented inner).leaves share := becomes_lay _ _ _ _ _ _
  have hlayout : pieces settings (outside.fill doc) =
      before ++ ((opening ++ .text keyword :: rest) ++
        (share ++ .newline own :: .text "end" :: .newline base :: after)) := by
    rw [pieces_eq_absolute, Absolute.pieces_eq_lay, hlay, hparts]
    simp only [List.append_assoc, List.cons_append, List.nil_append]
    rfl
  have hbody' : ∀ lead content rest, share = lead ++ .text content :: rest →
      ∃ indent, .newline indent ∈ lead := by
    intro lead content rest hsplit
    exact break_before_text hplace hbody hkind hinner hsplit
  exact ⟨before, opening ++ .text keyword :: rest, share, own, base, after, hbefore, hheader,
    hshare, hafter, setApart_of_layout hlayout hopening hfirst hplain hbody'⟩

end Print

open Print

/-- A class or a module whose body is a list of statements keeps its header, its body and
`end` on different lines, inside every document and at every width and indentation size.
This holds wherever the definition is read in a tree that prints, for the layout and for the
formatted text. -/
theorem Node.definition_set_apart
    {node body : Node} {doc : Doc} {bodyPath : List Nat}
    (hkind : node.kind = .parser .classDef ∨ node.kind = .parser .moduleDef)
    (hplace : node.bodyPath? = some bodyPath) (hbody : node.childAt bodyPath = .ok body)
    (hstatements : body.kind = .parser .bodyStmt) (hprint : node.print.result = .ok doc)
    (settings : Settings) :
    ∃ header inner ending,
      body.print.result = .ok inner ∧ node.Encloses doc header inner ending ∧
      (∀ outside : Doc.Surroundings,
        KeepsApart settings (outside.fill doc) outside.leavesAhead header.leaves
          (node.indented inner).leaves outside.leavesBehind) ∧
      ∀ (root : Node) (whole : Doc) (position : Position),
        root.print.result = .ok whole → root.Reads position → root.nodeAt? position = some node →
        (root.format settings).result = .ok (tidy (render settings whole)) ∧
        ∃ ahead behind, whole.leaves = ahead ++ doc.leaves ++ behind ∧
          KeepsApart settings whole ahead header.leaves (node.indented inner).leaves behind := by
  obtain ⟨header, inner, ending, hinner, hencloses⟩ := exists_encloses hkind hplace hbody hprint
  have hapart := keepsApart_of_encloses hplace hbody hstatements hinner hencloses settings
  refine ⟨header, inner, ending, hinner, hencloses, hapart, ?_⟩
  intro root whole position hroot hreads hnode
  constructor
  · rw [format_result, hroot]
  · obtain ⟨part, hpart, outside, halike, hleaves⟩ := contains_of_reads hroot hreads hnode
    rw [hprint] at hpart
    cases hpart
    obtain ⟨before, head, share, own, base, after, hbefore, hhead, hshare, hafter, hset⟩ :=
      hapart outside
    refine ⟨outside.leavesAhead, outside.leavesBehind, ?_, before, head, share, own, base, after,
      hbefore, hhead, hshare, hafter, hset.congr (halike.pieces_eq settings)⟩
    rw [hleaves, Doc.Surroundings.leaves_fill]

/-- A class among arguments, which are a group, whose first statement prints nothing. -/
theorem Node.definition_set_apart_argument :
    let call : Node := .branch (.parser .vcall) [.node (.leaf (.scanner .ident) "foo")]
    let body : Node := .branch (.parser .bodyStmt)
      [.list [.node (.branch (.parser .voidStmt) []), .node call]]
    let outer : Node := .branch (.parser .classDef)
      [.node (.leaf (.scanner .const) "Foo"), .absent, .node body]
    let root : Node := .branch (.parser .argsAddBlock) [.list [.node outer]]
    root.Reads [[0, 0]] ∧ (root.format ⟨80, 2⟩).result.toOption = some "class Foo\n  foo\nend\n" ∧
      ∃ whole header inner ahead behind,
        root.print.result = .ok whole ∧ body.print.result = .ok inner ∧
        KeepsApart ⟨80, 2⟩ whole ahead header (outer.indented inner).leaves behind := by
  intro call body outer root
  have hreads : root.Reads [[0, 0]] :=
    .inside (by decide +kernel) rfl (.here outer)
  have hformat : (root.format ⟨80, 2⟩).result.toOption = some "class Foo\n  foo\nend\n" := by
    decide +kernel
  have hok : ∀ node : Node, node.print.result.isOk = true → ∃ doc, node.print.result = .ok doc := by
    intro node hok
    cases hprint : node.print.result with
    | error fault =>
        rw [hprint] at hok
        cases hok
    | ok doc => exact ⟨doc, rfl⟩
  obtain ⟨whole, hwhole⟩ := hok root (by decide +kernel)
  obtain ⟨doc, hdoc⟩ := hok outer (by decide +kernel)
  obtain ⟨header, inner, ending, hinner, -, -, htree⟩ :=
    @Node.definition_set_apart outer body doc [2] (.inl rfl) rfl rfl rfl hdoc ⟨80, 2⟩
  obtain ⟨-, ahead, behind, -, hapart⟩ := htree root whole [[0, 0]] hwhole hreads rfl
  exact ⟨hreads, hformat, whole, header.leaves, inner, ahead, behind, hwhole, hinner, hapart⟩

end TreeFormat
