import TreeFormat.Proofs.Layout.Trimming
import TreeFormat.Proofs.Print.Builds
import TreeFormat.Proofs.Print.Induction

/-!
# Texts at the ends of what is printed

A string is printed between quotes, and other rules put texts of their own in front of
everything and behind it as well.  The texts of a tree that nothing encloses in this way are
exposed (`Node.Exposes`).  Only they can come to stand at an end of the rendered text, so
that the trimming reaches them: if none of them begins or ends with a line break, it drops
nothing that is not a line break of the layout (`Node.format_trims`).
-/

namespace TreeFormat

open Layout

/-- The rule of the kind puts texts of its own in front of everything and behind it. -/
def ParserEvent.encloses : ParserEvent → Bool
  | .classDef | .methodDef | .moduleDef | .paren | .stringContent | .stringEmbexpr => true
  | _ => false

/-- A text of a tree that no rule encloses when the tree is printed. -/
inductive Node.Exposes : Node → String → Prop where
  | leaf (event : ScannerEvent) (content : String) : Exposes (.leaf (.scanner event) content) content
  | connector {node : Node} {content : String} (hkind : node.kind = .parser .call)
      (htoken : node.tokenAt [1] = .ok content) : Exposes node content
  | inside {node child : Node} {event : ParserEvent} {path : List Nat} {content : String}
      (hkind : node.kind = .parser event) (hopen : event.encloses = false)
      (hpath : path ∈ node.readPaths) (hchild : node.childAt path = .ok child)
      (hexposes : Exposes child content) : Exposes node content

/-! ## Characters of documents -/

namespace Doc

@[simp] theorem chars_text (content : String) : (text content).chars = content.toList := by
  simp [chars]

@[simp] theorem chars_hardLine : hardLine.chars = [] := by
  rfl

@[simp] theorem chars_literalLine : literalLine.chars = [] := by
  rfl

@[simp] theorem chars_group (inner : Doc) : (group inner).chars = inner.chars := by
  rfl

@[simp] theorem chars_indent (inner : Doc) : (indent inner).chars = inner.chars := by
  rfl

@[simp] theorem chars_append (first second : Doc) :
    (first ++ second).chars = first.chars ++ second.chars := by
  simp [chars]

@[simp] theorem chars_concat (parts : List Doc) : (concat parts).chars = parts.flatMap chars := by
  simp [chars, List.flatMap_assoc]
  rfl

end Doc

namespace Print

open Doc (join text concat hardLine literalLine line nil)

variable {prints : Node → Doc → Prop} {node : Node}

theorem isTrimmed_concat
    {parts : List Doc} (hparts : ∀ part ∈ parts, IsTrimmed part.chars) :
    IsTrimmed (concat parts).chars := by
  rw [Doc.chars_concat]
  induction parts with
  | nil => exact isTrimmed_nil
  | cons part parts ih =>
      rw [List.forall_mem_cons] at hparts
      exact isTrimmed_append hparts.1 (ih hparts.2)

theorem isTrimmed_join
    {separator : Doc} {docs : List Doc} (hseparator : IsTrimmed separator.chars)
    (hdocs : ∀ doc ∈ docs, IsTrimmed doc.chars) : IsTrimmed (join separator docs).chars := by
  apply isTrimmed_concat
  intro part hpart
  rcases eq_or_mem_of_mem_intersperse hpart with rfl | hpart
  · exact hseparator
  · exact hdocs part hpart

/-! ## Children -/

/-- The children at slot paths print to documents that are trimmed. -/
def Trims (prints : Node → Doc → Prop) (node : Node) (paths : List (List Nat)) : Prop :=
  ∀ path ∈ paths, ∀ doc, ChildAt prints node path doc → IsTrimmed doc.chars

theorem isTrimmed_of_rel
    {α : Type} {rel : α → Doc → Prop} {values : List α} {docs : List Doc}
    (hdocs : List.Forall₂ rel values docs)
    (hrel : ∀ value ∈ values, ∀ doc, rel value doc → IsTrimmed doc.chars) :
    ∀ doc ∈ docs, IsTrimmed doc.chars := by
  intro doc hdoc
  obtain ⟨value, hvalue, hpair⟩ := exists_right_of_mem hdocs.flip hdoc
  exact hrel value hvalue doc hpair

namespace Trims

theorem left
    {paths paths' : List (List Nat)} (hpaths : Trims prints node (paths ++ paths')) :
    Trims prints node paths :=
  (List.forall_mem_append.1 hpaths).1

theorem right
    {paths paths' : List (List Nat)} (hpaths : Trims prints node (paths ++ paths')) :
    Trims prints node paths' :=
  (List.forall_mem_append.1 hpaths).2

theorem children
    {path : List Nat} {docs : List Doc} (hpaths : Trims prints node (node.childPaths path))
    (hdocs : ChildrenAt prints node path docs) : ∀ doc ∈ docs, IsTrimmed doc.chars :=
  isTrimmed_of_rel hdocs.paths hpaths

theorem children?
    {path : List Nat} {docs : List Doc} (hpaths : Trims prints node (node.childPaths path))
    (hdocs : ChildrenAt? prints node path docs) : ∀ doc ∈ docs, IsTrimmed doc.chars := by
  rcases hdocs with ⟨-, hdocs⟩ | ⟨-, rfl⟩
  · exact hpaths.children hdocs
  · intro doc hdoc
    cases hdoc

theorem child?
    {path : List Nat} {found : Option Doc} (hpaths : Trims prints node (node.pathIfPresent path))
    (hfound : ChildAt? prints node path found) : ∀ doc ∈ found.toList, IsTrimmed doc.chars := by
  cases found with
  | none =>
      intro doc hdoc
      cases hdoc
  | some doc =>
      obtain ⟨hhas, hdoc⟩ := hfound
      rw [Node.pathIfPresent, hhas] at hpaths
      intro doc' hmem
      rw [Option.toList_some, List.mem_singleton] at hmem
      rw [hmem]
      exact hpaths path List.mem_cons_self doc hdoc

/-- Parameters that are numbered, each of them at slot paths of its own. -/
theorem numbered
    {param : Nat → Doc → Prop} {paths : Nat → List (List Nat)} {indices : List Nat}
    {docs : List Doc} (hpaths : Trims prints node (indices.flatMap paths))
    (hdocs : List.Forall₂ param indices docs)
    (hparam : ∀ index doc, param index doc → Trims prints node (paths index) →
      IsTrimmed doc.chars) : ∀ doc ∈ docs, IsTrimmed doc.chars := by
  apply isTrimmed_of_rel hdocs
  intro index hindex doc hdoc
  apply hparam index doc hdoc
  intro path hpath
  exact hpaths path (List.mem_flatMap.2 ⟨index, hindex, hpath⟩)

theorem optionalParam
    {index : Nat} {doc : Doc} (hparam : OptionalParam prints node index doc)
    (hpaths : Trims prints node [[1, index, 0], [1, index, 1]]) : IsTrimmed doc.chars := by
  cases hparam with
  | intro hname hdefault =>
      have hname := hpaths _ (by simp) _ hname
      have hmark : IsTrimmed " = ".toList := by decide
      have hdefault := hpaths _ (by simp) _ hdefault
      simpa using isTrimmed_append hname (isTrimmed_append hmark hdefault)

theorem keywordParam
    {index : Nat} {doc : Doc} (hparam : KeywordParam prints node index doc)
    (hpaths : Trims prints node ([4, index, 0] :: node.pathIfPresent [4, index, 1])) :
    IsTrimmed doc.chars := by
  have hlabels := (List.forall_mem_cons.1 hpaths).1
  cases hparam with
  | required hlabel hdefault => exact hlabels _ hlabel
  | optional hlabel hdefault =>
      have hmark : IsTrimmed " ".toList := by decide
      have hdefault := child? (List.forall_mem_cons.1 hpaths).2 hdefault _ List.mem_cons_self
      simpa using isTrimmed_append (hlabels _ hlabel) (isTrimmed_append hmark hdefault)

theorem sigil
    {mark : String} {name : Option Doc} (hmark : IsTrimmed mark.toList)
    (hpaths : Trims prints node (node.pathIfPresent [0]))
    (hname : ChildAt? prints node [0] name) : IsTrimmed (text mark ++ name.getD nil).chars := by
  rw [Doc.chars_append, Doc.chars_text]
  apply isTrimmed_append hmark
  cases name with
  | none => exact isTrimmed_nil
  | some name => exact hpaths.child? hname name List.mem_cons_self

theorem params
    {doc : Doc} (hpaths : Trims prints node (node.readPathsAs .params))
    (hmakes : Makes prints node .params doc) : IsTrimmed doc.chars := by
  cases hmakes with
  | params hrequired hoptional hrest hpost hkeywords hkeywordRest hblock =>
      have hafter := hpaths.right.right
      have hnames := hafter.right.right.right
      have hseparator : IsTrimmed (text ", ").chars := by
        rw [Doc.chars_text]
        decide
      apply isTrimmed_join hseparator
      simp only [List.forall_mem_append]
      refine ⟨⟨⟨⟨⟨⟨?_, ?_⟩, ?_⟩, ?_⟩, ?_⟩, ?_⟩, ?_⟩
      · exact hpaths.left.children? hrequired
      · exact hpaths.right.left.numbered hoptional fun _ _ => optionalParam
      · exact hafter.left.child? hrest
      · exact hafter.right.left.children? hpost
      · exact hafter.right.right.left.numbered hkeywords fun _ _ => keywordParam
      · exact hnames.left.child? hkeywordRest
      · exact hnames.right.child? hblock

end Trims

/-! ## Rules -/

section Rules

variable {event : ParserEvent} {doc : Doc}

theorem isTrimmed_text {content : String} (hcontent : IsTrimmed content.toList) :
    IsTrimmed (text content).chars := by
  rw [Doc.chars_text]
  exact hcontent

/-- A rule that encloses what it prints has no line break at either end. -/
theorem Makes.isTrimmed_of_encloses
    (hencloses : event.encloses = true) (hmakes : Makes prints node event doc) :
    IsTrimmed doc.chars := by
  have hbetween : ∀ (mark mark' : String) (inner : List Char),
      IsTrimmed mark.toList ∧ mark.toList ≠ [] → IsTrimmed mark'.toList ∧ mark'.toList ≠ [] →
      doc.chars = mark.toList ++ inner ++ mark'.toList → IsTrimmed doc.chars := by
    intro mark mark' inner hmark hmark' hchars
    rw [hchars]
    exact isTrimmed_between hmark.1 hmark'.1 hmark.2 hmark'.2 inner
  cases hmakes with
  | @classDef name body hname hparent hbody =>
      refine hbetween "class " "end" (name.chars ++ (onOwnLine node 2 body).chars)
        (by decide) (by decide) ?_
      simp
  | @subclassDef name parent body hname hparent hbody =>
      refine hbetween "class " "end"
        (name.chars ++ " < ".toList ++ parent.chars ++ (onOwnLine node 2 body).chars)
        (by decide) (by decide) ?_
      simp
  | @methodDef name parameters body hname hparameters hbody =>
      refine hbetween "def " "end" (name.chars ++ parameters.chars ++ body.chars)
        (by decide) (by decide) ?_
      simp
  | @moduleDef name body hname hbody =>
      refine hbetween "module " "end" (name.chars ++ (onOwnLine node 1 body).chars)
        (by decide) (by decide) ?_
      simp
  | @paren docs hdocs =>
      refine hbetween "(" ")" (docs.flatten.flatMap Doc.chars) (by decide) (by decide) ?_
      simp
  | @stringContent quote docs hquote hdocs =>
      have hmark : IsTrimmed quote.toList ∧ quote.toList ≠ [] := by
        rw [hquote]
        split <;> decide
      refine hbetween quote quote (docs.flatMap Doc.chars) hmark hmark ?_
      simp
  | @stringEmbexpr docs hdocs =>
      refine hbetween "#\x7b" "\x7d" (docs.flatMap Doc.chars) (by decide) (by decide) ?_
      simp
  | _ => cases hencloses

/-- Any other rule has a line break at an end only if a child has one, or the connector of a
call. -/
theorem Makes.isTrimmed
    (hopen : event.encloses = false)
    (hconnector : event = .call → ∀ content, node.tokenAt [1] = .ok content →
      IsTrimmed content.toList)
    (hpaths : Trims prints node (node.readPathsAs event)) (hmakes : Makes prints node event doc) :
    IsTrimmed doc.chars := by
  cases hmakes with
  | aliasPair hdocs =>
      rw [Doc.chars_append]
      exact isTrimmed_append (isTrimmed_text (by decide))
        (isTrimmed_join (isTrimmed_text (by decide)) (hpaths.children hdocs))
  | arguments hdocs hblock =>
      exact isTrimmed_join (isTrimmed_text (by decide)) (hpaths.left.children hdocs)
  | argsAddBlock hdocs hblock =>
      rw [Doc.chars_group, Doc.chars_append]
      exact isTrimmed_append
        (isTrimmed_join (isTrimmed_text (by decide)) (hpaths.left.children hdocs))
        (hpaths.right.child? hblock _ List.mem_cons_self)
  | assign hdocs => exact isTrimmed_join (isTrimmed_text (by decide)) (hpaths.children hdocs)
  | @binary operator left right hoperator hleft hright =>
      have hseparator : IsTrimmed (concat [text " ", text operator, text " "]).chars := by
        have hchars : (concat [text " ", text operator, text " "]).chars =
            " ".toList ++ operator.toList ++ " ".toList := by simp
        rw [hchars]
        exact isTrimmed_between (by decide) (by decide) (by decide) (by decide) _
      apply isTrimmed_join hseparator
      rw [List.forall_mem_cons, List.forall_mem_singleton]
      exact ⟨hpaths [0] (by simp [Node.readPathsAs]) _ hleft,
        hpaths [2] (by simp [Node.readPathsAs]) _ hright⟩
  | blockArg hname => exact hpaths.sigil (by decide) hname
  | bodyStmt hdocs => exact isTrimmed_join isTrimmed_nil (hpaths.children hdocs)
  | @call connector receiver method htoken hreceiver hmethod =>
      apply isTrimmed_join (isTrimmed_text (hconnector rfl connector htoken))
      rw [List.forall_mem_cons, List.forall_mem_singleton]
      exact ⟨hpaths [0] (by simp [Node.readPathsAs]) _ hreceiver,
        hpaths [2] (by simp [Node.readPathsAs]) _ hmethod⟩
  | command hdocs => exact isTrimmed_join (isTrimmed_text (by decide)) (hpaths.children hdocs)
  | constRef hdoc => exact hpaths [0] List.mem_cons_self _ hdoc
  | kwRestParam hname => exact hpaths.sigil (by decide) hname
  | params hrequired hoptional hrest hpost hkeywords hkeywordRest hblock =>
      exact hpaths.params
        (.params hrequired hoptional hrest hpost hkeywords hkeywordRest hblock)
  | program hdocs => exact isTrimmed_join isTrimmed_nil (hpaths.children hdocs)
  | restParam hname => exact hpaths.sigil (by decide) hname
  | stringLiteral hdocs => exact isTrimmed_concat (hpaths.children hdocs)
  | symbol hdocs =>
      rw [Doc.chars_append]
      exact isTrimmed_append (isTrimmed_text (by decide))
        (isTrimmed_concat (hpaths.children hdocs))
  | symbolLiteral hdocs => exact isTrimmed_concat (hpaths.children hdocs)
  | varField hdocs => exact isTrimmed_concat (hpaths.children hdocs)
  | varRef hdoc => exact hpaths [0] List.mem_cons_self _ hdoc
  | vcall hdocs => exact isTrimmed_concat (hpaths.children hdocs)
  | voidStmt => exact isTrimmed_nil
  | _ => cases hopen

end Rules

end Print

/-! ## Trees -/

/-- If no exposed text of a tree has a line break at an end, what it prints has none there
but those of the layout. -/
theorem Node.isTrimmed_of_exposes
    {root : Node} {doc : Doc} (hprint : root.print.result = .ok doc)
    (hexposed : ∀ content, root.Exposes content → IsTrimmed content.toList) :
    IsTrimmed doc.chars := by
  let Trimmed (node : Node) (doc : Doc) : Prop :=
    (∀ content, node.Exposes content → IsTrimmed content.toList) → IsTrimmed doc.chars
  have hall : Trimmed root doc := by
    apply Node.print_induction _ _ _ hprint
    · intro event content hexposed
      exact Print.isTrimmed_text (hexposed content (.leaf event content))
    · intro node _ _
      exact isTrimmed_nil
    · intro node event doc hkind hmakes hexposed
      by_cases hencloses : event.encloses = true
      · exact hmakes.isTrimmed_of_encloses hencloses
      · rw [Bool.not_eq_true] at hencloses
        apply hmakes.isTrimmed hencloses
        · rintro rfl content htoken
          exact hexposed content (.connector hkind htoken)
        · intro path hpath doc ⟨child, hchild, hdoc⟩
          have hread : path ∈ node.readPaths := by
            rw [Node.readPaths, hkind]
            exact hpath
          apply hdoc
          intro content hcontent
          exact hexposed content (.inside hkind hencloses hread hchild hcontent)
  exact hall hexposed

/-- Formatting a tree that prints drops line breaks at the two ends of the rendered text and
ends the last line.  The line breaks are those of the layout if and only if no text breaks
the line in front of everything else or behind it, and no text does if none that is exposed
begins or ends with a line break. -/
theorem Node.format_trims
    {root : Node} {doc : Doc} (hprint : root.print.result = .ok doc) (settings : Settings) :
    let all := runs settings doc
    (render settings doc).toList = all.flatMap Run.chars ∧
      List.Forall₂ Becomes (doc.leaves.filter Leaf.isVisible) (all.filter Run.isLeaf) ∧
      ∃ text, (root.format settings).result = .ok text ∧
        (∃ front body back,
          (render settings doc).toList =
            List.replicate front '\n' ++ body ++ List.replicate back '\n' ∧
          text.toList = endLine body) ∧
        (DropsBreaks all text ↔ ¬ BreaksAhead all ∧ ¬ BreaksBehind all) ∧
        ((∀ content, root.Exposes content → IsTrimmed content.toList) → DropsBreaks all text) := by
  intro all
  have hall : (render settings doc).toList = all.flatMap Run.chars :=
    render_eq_flatMap settings doc
  have hbreaks : DropsBreaks all (tidy (render settings doc)) ↔
      ¬ BreaksAhead all ∧ ¬ BreaksBehind all :=
    dropsBreaks_tidy_iff (chars_runs_ne_nil settings doc) hall
  have hresult : (root.format settings).result = .ok (tidy (render settings doc)) := by
    rw [Node.format_result, hprint]
  refine ⟨hall, leaves_become_runs settings doc, _, hresult, ?_, hbreaks, ?_⟩
  · obtain ⟨front, back, hsplit⟩ := exists_trimBreaks (render settings doc).toList
    exact ⟨front, _, back, hsplit, tidy_toList _⟩
  · intro hexposed
    rw [hbreaks]
    exact not_breaks_of_isTrimmed (Node.isTrimmed_of_exposes hprint hexposed) settings

namespace Node.Exposes

theorem exists_child
    {node : Node} {event : ParserEvent} {content : String} (hkind : node.kind = .parser event)
    (hcall : event ≠ .call) (hexposes : node.Exposes content) :
    event.encloses = false ∧ ∃ path ∈ node.readPaths, ∃ child,
      node.childAt path = .ok child ∧ child.Exposes content := by
  cases hexposes with
  | leaf event' => cases hkind
  | connector hkind' =>
      rw [hkind] at hkind'
      exact absurd (Kind.parser.inj hkind') hcall
  | inside hkind' hopen hpath hchild hexposes =>
      rw [hkind] at hkind'
      cases hkind'
      exact ⟨hopen, _, hpath, _, hchild, hexposes⟩

end Node.Exposes

/-- A string with line breaks at both ends, behind an empty statement.  The quotes keep the
trimming away from them. -/
theorem Node.format_trims_quoted :
    let quoted : Node := .branch (.parser .stringContent)
      [.node (.leaf (.scanner .tstringContent) "\nfoo\n")]
    let root : Node := .branch (.parser .program) [.list [
      .node (.branch (.parser .voidStmt) []),
      .node (.branch (.parser .stringLiteral) [.node quoted])]]
    ∃ doc, root.print.result = .ok doc ∧
      (∀ content, root.Exposes content → IsTrimmed content.toList) ∧
      (root.format {}).result.toOption = some "'\nfoo\n'\n" ∧
      DropsBreaks (runs {} doc) "'\nfoo\n'\n" := by
  intro quoted root
  obtain ⟨doc, hprint⟩ : ∃ doc, root.print.result = .ok doc := ⟨_, rfl⟩
  have hexposed : ∀ content, root.Exposes content → IsTrimmed content.toList := by
    intro content hexposes
    -- The way down ends at the empty statement, or at the rule that sets the quotes.
    have hpaths : root.readPaths = [[0, 0], [0, 1]] := by decide +kernel
    obtain ⟨-, path, hpath, child, hchild, hexposes⟩ := hexposes.exists_child rfl (by decide)
    rw [hpaths, List.mem_pair] at hpath
    rcases hpath with rfl | rfl
    · cases hchild
      obtain ⟨-, path, hpath, -⟩ := hexposes.exists_child rfl (by decide)
      cases hpath
    · cases hchild
      obtain ⟨-, path, hpath, child, hchild, hexposes⟩ := hexposes.exists_child rfl (by decide)
      cases List.mem_singleton.1 hpath
      cases hchild
      obtain ⟨hopen, -⟩ := hexposes.exists_child rfl (by decide)
      cases hopen
  have htext : (root.format {}).result.toOption = some "'\nfoo\n'\n" := by decide +kernel
  obtain ⟨-, -, text, hresult, -, -, hdrops⟩ := Node.format_trims hprint {}
  rw [hresult] at htext
  cases htext
  exact ⟨doc, hprint, hexposed, by rw [hresult]; rfl, hdrops hexposed⟩

/-- A string without quotes that begins with a line break. -/
theorem Node.format_trims_unquoted :
    let string : Node := .branch (.parser .stringLiteral)
      [.node (.leaf (.scanner .tstringContent) "\nfoo")]
    let root : Node := .branch (.parser .program) [.list [.node string]]
    let doc : Doc := .root (.join .hardLine [.concat [.text "\nfoo"]])
    root.print.result = .ok doc ∧ (root.format {}).result.toOption = some "foo\n" ∧
      ¬ DropsBreaks (runs {} doc) "foo\n" := by
  intro string root doc
  have htidy : tidy (render {} doc) = "foo\n" := by decide +kernel
  have hahead : BreaksAhead (runs {} doc) := ⟨"\nfoo", by decide +kernel, by decide⟩
  refine ⟨rfl, by decide +kernel, ?_⟩
  rw [← htidy, dropsBreaks_tidy_iff (chars_runs_ne_nil {} doc) (render_eq_flatMap {} doc)]
  intro hbreaks
  exact hbreaks.1 hahead

end TreeFormat
