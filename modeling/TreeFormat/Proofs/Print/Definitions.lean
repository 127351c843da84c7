import TreeFormat.Proofs.Layout.Openings
import TreeFormat.Proofs.Print.Builds
import TreeFormat.Proofs.Print.Locality

/-!
# Definitions

A class, a module or a method prints a header that starts with a keyword, an indented
body, and `end` behind a line break of its own (`Print.Defines`).  Whatever comes in
front of it, the body starts on a line of its own: if the definition does not break the
line there, the first statement does (`Node.breaksOwnLine_of_first`).

Rules that are neither plain nor make a definition make a body.  `Print.Makes.shape`
tells the three apart, once for everything that is proved of all rules.
-/

namespace TreeFormat

open Layout

namespace Node

/-- Where the body of a definition is. -/
def bodyPath? (node : Node) : Option (List Nat) :=
  match node.kind with
  | .parser .classDef => some [2]
  | .parser .moduleDef => some [1]
  | .parser .methodDef => some [2]
  | _ => none

/-- The text that the header of a definition starts with. -/
def keyword? (node : Node) : Option String :=
  match node.kind with
  | .parser .classDef => some "class "
  | .parser .moduleDef => some "module "
  | .parser .methodDef => some "def "
  | _ => none

/-- Whether a class or module breaks the line in front of the body in a slot. -/
def breaksInFront (node : Node) (slot : Nat) : Bool :=
  match Print.firstStatement? node slot with
  | some statement => !Print.breaksOwnLine statement
  | none => false

/-- The break in front of a body depends on the kind of its first statement only. -/
theorem breaksInFront_congr
    {node node' : Node} {slot : Nat}
    (hkind : (Print.firstStatement? node slot).map kind =
      (Print.firstStatement? node' slot).map kind) :
    node.breaksInFront slot = node'.breaksInFront slot := by
  unfold breaksInFront
  cases hstatement : Print.firstStatement? node slot with
  | none =>
      rw [hstatement, Option.map_none] at hkind
      rw [Option.map_eq_none_iff.1 hkind.symm]
  | some statement =>
      rw [hstatement, Option.map_some] at hkind
      obtain ⟨statement', hstatement', hsame⟩ := Option.map_eq_some_iff.1 hkind.symm
      rw [hstatement']
      simp only [Print.breaksOwnLine, hsame]

/-- Whether a definition breaks the line in front of its body. -/
def breaksBeforeBody (node : Node) : Bool :=
  match node.kind with
  | .parser .classDef => node.breaksInFront 2
  | .parser .moduleDef => node.breaksInFront 1
  | _ => true

theorem keyword_ne_empty
    {node : Node} {keyword : String} (hkeyword : node.keyword? = some keyword) : keyword ≠ "" := by
  unfold keyword? at hkeyword
  split at hkeyword <;> cases hkeyword <;> decide

theorem kind_of_bodyPath
    {node : Node} {bodyPath : List Nat} (hplace : node.bodyPath? = some bodyPath) :
    node.kind = .parser .classDef ∧ bodyPath = [2] ∨
      node.kind = .parser .moduleDef ∧ bodyPath = [1] ∨
        node.kind = .parser .methodDef ∧ bodyPath = [2] := by
  unfold bodyPath? at hplace
  split at hplace
  · next hkind => exact .inl ⟨hkind, (Option.some.inj hplace).symm⟩
  · next hkind => exact .inr (.inl ⟨hkind, (Option.some.inj hplace).symm⟩)
  · next hkind => exact .inr (.inr ⟨hkind, (Option.some.inj hplace).symm⟩)
  · cases hplace

theorem exists_event_of_bodyPath
    {node : Node} {bodyPath : List Nat} (hplace : node.bodyPath? = some bodyPath) :
    ∃ event, node.kind = .parser event := by
  rcases kind_of_bodyPath hplace with ⟨hkind, -⟩ | ⟨hkind, -⟩ | ⟨hkind, -⟩
  all_goals exact ⟨_, hkind⟩

theorem exists_bodyPath_of_keyword
    {node : Node} {keyword : String} (hkeyword : node.keyword? = some keyword) :
    ∃ bodyPath, node.bodyPath? = some bodyPath := by
  unfold keyword? at hkeyword
  unfold bodyPath?
  split at hkeyword
  · exact ⟨_, rfl⟩
  · exact ⟨_, rfl⟩
  · exact ⟨_, rfl⟩
  · cases hkeyword

end Node

/-! ## Shapes of rules -/

namespace Print

open Doc (join text concat hardLine literalLine line nil)

variable {prints : Node → Doc → Prop} {node : Node} {event : ParserEvent} {doc inner : Doc}

/-- A document is another one or a group of it. -/
def Wraps (doc inner : Doc) : Prop :=
  doc = inner ∨ doc = .group inner

theorem Wraps.leaves (hwraps : Wraps doc inner) : doc.leaves = inner.leaves := by
  rcases hwraps with rfl | rfl
  · rfl
  · rw [Doc.leaves]

/-- What the rule of a class, a module or a method makes.  The keyword starts the header,
which a module or a method puts behind a line break. -/
inductive Defines (prints : Node → Doc → Prop) (node : Node) (event : ParserEvent) :
    Doc → Prop where
  | intro {keyword : String} {bodyPath : List Nat} {paths : List (List Nat)}
      {breaks parts closing : List Doc} {header body ending : Doc}
      (hkeyword : node.keyword? = some keyword) (hplace : node.bodyPath? = some bodyPath)
      (hpaths : node.readPathsAs event = paths ++ [bodyPath]) (hapart : bodyPath ∉ paths)
      (hbreaks : breaks = [] ∧ node.kind ≠ .parser .methodDef ∨ breaks = [hardLine])
      (hparts : Builds prints node paths (concat (breaks ++ text keyword :: parts)))
      (hheader : Wraps header (concat (breaks ++ text keyword :: parts)))
      (hbody : ChildAt prints node bodyPath body)
      (hending : Wraps ending (hardLine ++ text "end"))
      (hclosing : closing = [] ∨ closing = [literalLine]) :
      Defines prints node event <| concat <|
        header :: .indent (if node.breaksBeforeBody then hardLine ++ body else body) ::
          ending :: closing

/-- What a rule makes: something that is built from the children in order, a body, or a
definition. -/
inductive Shape (prints : Node → Doc → Prop) (node : Node) : ParserEvent → Doc → Prop where
  | plain {event : ParserEvent} {doc : Doc} (hplace : node.bodyPath? = none)
      (hbuilds : Builds prints node (node.readPathsAs event) doc) : Shape prints node event doc
  | body {docs : List Doc} (hdocs : List.Forall₂ (ChildAt prints node) (node.childPaths [0]) docs) :
      Shape prints node .bodyStmt (join line docs)
  | definition {event : ParserEvent} {doc : Doc} (hdefines : Defines prints node event doc) :
      Shape prints node event doc

theorem onOwnLine_eq (node : Node) (slot : Nat) (body : Doc) :
    onOwnLine node slot body = if node.breaksInFront slot then hardLine ++ body else body := by
  unfold onOwnLine Node.breaksInFront
  cases firstStatement? node slot with
  | none => rfl
  | some statement => cases hbreaks : breaksOwnLine statement <;> simp [hbreaks]

theorem defines_class
    {paths : List (List Nat)} {parts : List Doc} {body : Doc}
    (hkind : node.kind = .parser .classDef) (hpaths : node.readPathsAs .classDef = paths ++ [[2]])
    (hapart : [2] ∉ paths) (hparts : Builds prints node paths (concat (text "class " :: parts)))
    (hbody : ChildAt prints node [2] body) :
    Defines prints node .classDef <| concat [
      .group (concat (text "class " :: parts)),
      .indent (onOwnLine node 2 body),
      .group (hardLine ++ text "end"),
      literalLine] := by
  have hkeyword : node.keyword? = some "class " := by rw [Node.keyword?, hkind]
  have hplace : node.bodyPath? = some [2] := by rw [Node.bodyPath?, hkind]
  have hmethod : node.kind ≠ .parser .methodDef := by rw [hkind]; decide
  have hfront : node.breaksBeforeBody = node.breaksInFront 2 := by
    rw [Node.breaksBeforeBody, hkind]
  rw [onOwnLine_eq, ← hfront]
  exact .intro hkeyword hplace hpaths hapart (.inl ⟨rfl, hmethod⟩) hparts (.inr rfl) hbody
    (.inr rfl) (.inr rfl)

theorem Makes.defines
    (hkind : node.kind = .parser event) (hplace : node.bodyPath? ≠ none)
    (hmakes : Makes prints node event doc) : Defines prints node event doc := by
  cases hmakes with
  | classDef hname hparent hbody =>
      have hhas : node.has [1] = false := hparent
      have hpaths : node.readPathsAs .classDef = [[0]] ++ [[2]] := by
        simp [Node.readPathsAs, Node.pathIfPresent, hhas]
      exact defines_class hkind hpaths (by decide) (.append (.text "class ") (.child hname)) hbody
  | subclassDef hname hparent hbody =>
      obtain ⟨hhas, hparent⟩ := hparent
      have hpaths : node.readPathsAs .classDef = [[0], [1]] ++ [[2]] := by
        simp [Node.readPathsAs, Node.pathIfPresent, hhas]
      have hname := Builds.append (.text "class ") (.child hname)
      exact defines_class hkind hpaths (by decide)
        (.append (.append hname (.text " < ")) (.child hparent)) hbody
  | @methodDef name parameters body hname hparameters hbody =>
      have hkeyword : node.keyword? = some "def " := by rw [Node.keyword?, hkind]
      have hbody? : node.bodyPath? = some [2] := by rw [Node.bodyPath?, hkind]
      have hfront : node.breaksBeforeBody = true := by rw [Node.breaksBeforeBody, hkind]
      have hinner : hardLine ++ body =
          if node.breaksBeforeBody then hardLine ++ body else body := by rw [hfront, if_pos rfl]
      have hpaths : node.readPathsAs .methodDef = [[0], [1]] ++ [[2]] := rfl
      rw [hinner]
      exact .intro hkeyword hbody? hpaths (by decide) (.inr rfl)
        (.append (.append (.append .hardLine (.text "def ")) (.child hname)) (.child hparameters))
        (.inr rfl) hbody (.inr rfl) (.inl rfl)
  | moduleDef hname hbody =>
      have hkeyword : node.keyword? = some "module " := by rw [Node.keyword?, hkind]
      have hbody? : node.bodyPath? = some [1] := by rw [Node.bodyPath?, hkind]
      have hfront : node.breaksBeforeBody = node.breaksInFront 1 := by
        rw [Node.breaksBeforeBody, hkind]
      have hpaths : node.readPathsAs .moduleDef = [[0]] ++ [[1]] := rfl
      rw [onOwnLine_eq, ← hfront]
      exact .intro hkeyword hbody? hpaths (by decide) (.inr rfl)
        (.append (.append .hardLine (.text "module ")) (.child hname)) (.inl rfl) hbody (.inl rfl)
        (.inr rfl)
  | _ => exact absurd (by rw [Node.bodyPath?, hkind]) hplace

/-- A rule is plain, makes a body or makes a definition. -/
theorem Makes.shape
    (hkind : node.kind = .parser event) (hmakes : Makes prints node event doc) :
    Shape prints node event doc := by
  by_cases hplace : node.bodyPath? = none
  · cases hplain : event.isPlain with
    | true => exact .plain hplace (hmakes.builds hplain)
    | false =>
        cases hmakes with
        | bodyStmt hdocs => exact .body hdocs.paths
        | classDef => simp [Node.bodyPath?, hkind] at hplace
        | subclassDef => simp [Node.bodyPath?, hkind] at hplace
        | methodDef => simp [Node.bodyPath?, hkind] at hplace
        | moduleDef => simp [Node.bodyPath?, hkind] at hplace
        | _ => cases hplain
  · exact .definition (hmakes.defines hkind hplace)

/-! ## Documents of children -/

/-- The document of a node contains that of every child that the rule reads. -/
theorem Makes.contains
    (hkind : node.kind = .parser event) (hmakes : Makes prints node event doc)
    {path : List Nat} (hpath : path ∈ node.readPathsAs event) :
    ∃ part, ChildAt prints node path part ∧ doc.Contains part := by
  cases hmakes.shape hkind with
  | plain _ hbuilds => exact hbuilds.contains hpath
  | body hdocs =>
      obtain ⟨part, hpart, hchild⟩ := exists_right_of_mem hdocs hpath
      exact ⟨part, hchild, .of_mem (mem_intersperse_of_mem line hpart) (.refl part)⟩
  | definition hdefines =>
      cases hdefines with
      | @intro keyword bodyPath paths breaks parts closing header body ending _ _ hpaths _ _ hparts
          hheader hbody =>
          rw [hpaths, List.mem_append, List.mem_singleton] at hpath
          rcases hpath with hpath | rfl
          · obtain ⟨part, hpart, hcontains⟩ := hparts.contains hpath
            refine ⟨part, hpart, .of_mem List.mem_cons_self ?_⟩
            rcases hheader with rfl | rfl
            · exact hcontains
            · exact hcontains.inside (.group .hole)
          · have hinner : (if node.breaksBeforeBody then hardLine ++ body else body).Contains body := by
              split
              · exact .append_right hardLine (.refl body)
              · exact .refl body
            refine ⟨body, hbody, .of_mem (List.mem_cons_of_mem _ List.mem_cons_self) ?_⟩
            exact hinner.inside (.indent .hole)

/-! ## Documents open in place -/

end Print

namespace Print

open Doc (join text concat hardLine literalLine line nil)

variable {node body statement : Node}

theorem childPathsFrom_head
    {items : List Slot} {path found : List Nat} {index : Nat}
    (hfirst : (Node.childPathsFrom path index items)[0]? = some found) :
    ∃ offset child, found = path ++ [index + offset] ∧ items[offset]? = some (.node child) ∧
      items.findSome? Slot.child? = some child := by
  induction items generalizing index with
  | nil => cases hfirst
  | cons item items ih =>
      have hrest : (Node.childPathsFrom path (index + 1) items)[0]? = some found →
          item.child? = none →
          ∃ offset child, found = path ++ [index + offset] ∧
            (item :: items)[offset]? = some (.node child) ∧
            (item :: items).findSome? Slot.child? = some child := by
        intro hrest hitem
        obtain ⟨offset, child, rfl, hchild, hfound⟩ := ih hrest
        refine ⟨offset + 1, child, ?_, hchild, ?_⟩
        · rw [Nat.add_assoc, Nat.add_comm 1]
        · rw [List.findSome?_cons, hitem]
          exact hfound
      cases item with
      | node child =>
          cases hfirst
          exact ⟨0, child, rfl, rfl, rfl⟩
      | absent => exact hrest hfirst rfl
      | token content => exact hrest hfirst rfl
      | list inner => exact hrest hfirst rfl

theorem firstStatement?_of_first
    {slot : Nat} {path : List Nat} (hbody : node.childAt [slot] = .ok body)
    (hfirst : (body.childPaths [0])[0]? = some path)
    (hstatement : body.childAt path = .ok statement) :
    firstStatement? node slot = some statement := by
  unfold Node.childPaths at hfirst
  cases hitems : body.listAt [0] with
  | error fault =>
      rw [hitems] at hfirst
      cases hfirst
  | ok items =>
      rw [hitems] at hfirst
      obtain ⟨offset, child, rfl, hchild, hfound⟩ := childPathsFrom_head hfirst
      rw [Node.listAt_eq_ok_iff] at hitems
      have hsame : body.childAt ([0] ++ [0 + offset]) = .ok child := by
        rw [Node.childAt_eq_ok_iff, Node.slotAt_concat_eq_ok_iff, Nat.zero_add]
        exact ⟨items, hitems, hchild⟩
      rw [hstatement] at hsame
      cases hsame
      have hhead : body.slots.head? = some (.list items) := by
        rw [List.head?_eq_getElem?]
        exact Node.slotAt_singleton_eq_ok_iff.1 hitems
      unfold firstStatement?
      rw [Node.childAt_eq_ok_iff] at hbody
      rw [hbody]
      simp only [hhead, hfound]

end Print

namespace Node

variable {node body statement : Node} {bodyPath path : List Nat} {doc : Doc}

open Print in
/-- Where a definition does not break the line in front of its body, the first statement
prints nothing or breaks the line itself. -/
theorem breaksOwnLine_of_first
    (hplace : node.bodyPath? = some bodyPath) (hbody : node.childAt bodyPath = .ok body)
    (hbreaks : node.breaksBeforeBody = false) (hfirst : (body.childPaths [0])[0]? = some path)
    (hstatement : body.childAt path = .ok statement) : breaksOwnLine statement = true := by
  have hopen : ∀ slot, node.childAt [slot] = .ok body → node.breaksInFront slot = false →
      breaksOwnLine statement = true := by
    intro slot hslot hfront
    rw [breaksInFront, firstStatement?_of_first hslot hfirst hstatement] at hfront
    simpa using hfront
  rcases kind_of_bodyPath hplace with ⟨hkind, rfl⟩ | ⟨hkind, rfl⟩ | ⟨hkind, rfl⟩
  · rw [breaksBeforeBody, hkind] at hbreaks
    exact hopen 2 hbody hbreaks
  · rw [breaksBeforeBody, hkind] at hbreaks
    exact hopen 1 hbody hbreaks
  · rw [breaksBeforeBody, hkind] at hbreaks
    cases hbreaks

open Print in
theorem print_body
    (hkind : body.kind = .parser .bodyStmt)
    (hprint : body.print.result = .ok doc) :
    ∃ docs, doc = .join .line docs ∧
      List.Forall₂ (ChildAt (fun statement part => statement.print.result = .ok part) body)
        (body.childPaths [0]) docs := by
  have hmakes := Node.makes_of_print hkind hprint
  cases hmakes with
  | bodyStmt hdocs => exact ⟨_, rfl, hdocs.paths⟩

open Print in
/-- A definition is made from what its children print to. -/
theorem defines_of_print
    (hplace : node.bodyPath? = some bodyPath) (hprint : node.print.result = .ok doc) :
    ∃ event, Defines (fun child doc => child.print.result = .ok doc) node event doc := by
  obtain ⟨event, hkind⟩ := exists_event_of_bodyPath hplace
  have hdefinition : node.bodyPath? ≠ none := by
    rw [hplace]
    exact Option.some_ne_none _
  exact ⟨event, (makes_of_print hkind hprint).defines hkind hdefinition⟩

open Print in
/-- The document of a tree contains that of every node that is read. -/
theorem contains_of_reads
    {root : Node} {position : Position} (hprint : root.print.result = .ok doc)
    (hreads : root.Reads position) (hnode : root.nodeAt? position = some node) :
    ∃ part, node.print.result = .ok part ∧ doc.Contains part := by
  induction hreads generalizing doc with
  | here root =>
      cases hnode
      exact ⟨doc, hprint, .refl doc⟩
  | @inside root child path rest hpath hchild _ ih =>
      rw [nodeAt?_cons hchild] at hnode
      cases hkind : root.kind with
      | scanner event => simp [readPaths, hkind] at hpath
      | other name => simp [readPaths, hkind] at hpath
      | parser event =>
          rw [readPaths, hkind] at hpath
          obtain ⟨part, ⟨found, hfound, hpart⟩, hcontains⟩ :=
            (makes_of_print hkind hprint).contains hkind hpath
          rw [hchild] at hfound
          cases hfound
          obtain ⟨inner, hinner, hinside⟩ := ih hpart hnode
          exact ⟨inner, hinner, hcontains.trans hinside⟩

open Print Doc in
/-- The document of a definition has the body indented in the second place. -/
theorem print_definition
    (hplace : node.bodyPath? = some bodyPath) (hbody : node.childAt bodyPath = .ok body)
    (hprint : node.print.result = .ok doc) :
    ∃ header inner closing, body.print.result = .ok inner ∧
      doc = .concat (header ::
        .indent (if node.breaksBeforeBody then hardLine ++ inner else inner) :: closing) := by
  obtain ⟨event, hdefines⟩ := defines_of_print hplace hprint
  cases hdefines with
  | intro _ hother _ _ _ _ _ hinner _ _ =>
      rw [hplace] at hother
      cases hother
      obtain ⟨child, hchild, hinner⟩ := hinner
      rw [hbody] at hchild
      cases hchild
      exact ⟨_, _, _, hinner, rfl⟩

end Node

/-! ## Headers and ends -/

namespace Print

open Doc (text concat hardLine literalLine)
open Layout

variable {width size own base column : Nat} {mode : Mode} {context : Context} {doc inner : Doc}

/-- A group is laid out like its content, in a mode of its own. -/
theorem Wraps.lay
    (hwraps : Wraps doc inner) (width size own base : Nat) (mode : Mode) (context : Context)
    (column : Nat) :
    ∃ mode', doc.lay width size own base mode context column =
      inner.lay width size own base mode' context column := by
  rcases hwraps with rfl | rfl
  · exact ⟨mode, rfl⟩
  · exact ⟨_, by rw [Doc.lay]⟩

theorem layAll_text
    {content : String} (hcontent : content ≠ "") (parts : List Doc) :
    ∃ rest, (Doc.layAll width size (text content :: parts) own base mode context column).2 =
      .text content :: rest := by
  have hempty : content.isEmpty = false := by simpa using hcontent
  rw [Doc.layAll, Doc.lay, hempty]
  exact ⟨_, rfl⟩

theorem layAll_break_text
    {content : String} (hcontent : content ≠ "") (parts : List Doc) :
    ∃ rest, (Doc.layAll width size (hardLine :: text content :: parts) own base mode context
      column).2 = .newline own :: .text content :: rest := by
  obtain ⟨rest, hrest⟩ :
      ∃ rest, (Doc.layAll width size (text content :: parts) own base mode context own).2 =
        .text content :: rest := layAll_text hcontent parts
  have hempty : content.isEmpty = false := by simpa using hcontent
  have hnext : (context.inFrontOfAll width own (text content :: parts)).next = some own := by
    simp [Context.inFrontOfAll, Doc.areTextless, Doc.isTextless, hempty]
  refine ⟨rest, ?_⟩
  rw [Doc.layAll, Doc.lay, hnext]
  simp only [breakAt, Option.getD_some, hrest]
  rfl

/-- A header is laid out from its keyword, which a module or a method puts behind a line
break. -/
theorem lay_header
    {keyword : String} {breaks parts : List Doc} {header : Doc} {inPlace : Prop}
    (hcontent : keyword ≠ "") (hbreaks : breaks = [] ∧ inPlace ∨ breaks = [hardLine])
    (hheader : Wraps header (concat (breaks ++ text keyword :: parts))) :
    ∃ opening, (opening = [] ∧ inPlace ∨ opening = [.newline own]) ∧
      ∃ rest, (header.lay width size own base mode context column).2 =
        opening ++ .text keyword :: rest := by
  obtain ⟨mode', hlaid⟩ := hheader.lay width size own base mode context column
  rw [hlaid]
  rcases hbreaks with ⟨rfl, hplace⟩ | rfl
  · exact ⟨[], .inl ⟨rfl, hplace⟩, layAll_text hcontent parts⟩
  · exact ⟨[.newline own], .inr rfl, layAll_break_text hcontent parts⟩

theorem lay_ending
    {ending : Doc} (hending : Wraps ending (hardLine ++ text "end")) :
    (ending.lay width size own base mode context column).2 = [.newline own, .text "end"] := by
  obtain ⟨mode', hlaid⟩ := hending.lay width size own base mode context column
  rw [hlaid]
  rfl

end Print

open Print Doc Layout in
/-- A definition is laid out from its keyword, which the header of a module or a method
puts behind a line break, to its end. -/
theorem Node.lay_definition
    {node : Node} {doc : Doc} {keyword : String} (hkeyword : node.keyword? = some keyword)
    (hprint : node.print.result = .ok doc) (width size own base : Nat) (context : Context)
    (column : Nat) :
    ∃ opening, (opening = [] ∧ node.kind ≠ .parser .methodDef ∨ opening = [.newline own]) ∧
      ∃ middle closing,
        (doc.lay width size own base .broken context column).2 =
          opening ++ .text keyword :: (middle ++ .newline own :: .text "end" :: closing) ∧
        ∀ piece ∈ closing, ∃ indent, piece = .newline indent := by
  obtain ⟨bodyPath, hplace⟩ := exists_bodyPath_of_keyword hkeyword
  obtain ⟨event, hdefines⟩ := defines_of_print hplace hprint
  cases hdefines with
  | @intro keyword' _ _ breaks parts closing header body ending hkeyword' _ _ _ hbreaks _ hheader _
      hending hclosing =>
      rw [hkeyword] at hkeyword'
      cases hkeyword'
      have hcontent := keyword_ne_empty hkeyword
      let indented := Doc.indent (if node.breaksBeforeBody then hardLine ++ body else body)
      let first := header.lay width size own base .broken
        (context.inFrontOfAll width own (indented :: ending :: closing)) column
      let second := indented.lay width size own base .broken
        (context.inFrontOfAll width own (ending :: closing)) first.1
      let third := ending.lay width size own base .broken
        (context.inFrontOfAll width own closing) second.1
      let last := Doc.layAll width size closing own base .broken context third.1
      obtain ⟨opening, hopening, rest, hfirst⟩ :
          ∃ opening, (opening = [] ∧ node.kind ≠ .parser .methodDef ∨ opening = [.newline own]) ∧
            ∃ rest, first.2 = opening ++ .text keyword :: rest :=
        lay_header hcontent hbreaks hheader
      have hthird : third.2 = [.newline own, .text "end"] := lay_ending hending
      have hlast : ∀ piece ∈ last.2, ∃ indent, piece = .newline indent := by
        rcases hclosing with rfl | rfl
        · simp [last, Doc.layAll]
        · simp [last, Doc.layAll, Doc.lay, breakAt]
      refine ⟨opening, hopening, rest ++ second.2, last.2, ?_, hlast⟩
      calc
        _ = first.2 ++ (second.2 ++ (third.2 ++ last.2)) := rfl
        _ = _ := by
          rw [hfirst, hthird]
          simp only [List.append_assoc, List.cons_append, List.nil_append]

end TreeFormat
