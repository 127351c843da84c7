import TreeFormat.Proofs.Layout.Interchange
import TreeFormat.Proofs.Print.Makes
import TreeFormat.Proofs.Print.Reads

/-!
# What documents are built from

The document of a node is built from the documents of the children that its rule reads,
in the order in which they are read, and from fixed parts.  `Print.Builds` says so for
all rules that neither indent nor leave a line open: what the documents of the children
have in common goes over to the document of the node, if building keeps it
(`Builds.closed`).

The rules for bodies and definitions do more.  They are the four that
`ParserEvent.isPlain` leaves out.
-/

namespace TreeFormat

/-- The rule of the kind puts parts in a row and adds texts.  Bodies and definitions
break lines and indent. -/
def ParserEvent.isPlain : ParserEvent → Bool
  | .bodyStmt | .classDef | .methodDef | .moduleDef => false
  | _ => true

namespace Print

open Doc (join text concat hardLine nil)
open Walk (Visits)

variable {prints : Node → Doc → Prop} {node : Node}

/-- Documents that are put together from those of the children at slot paths, in
order, and from texts and line breaks. -/
inductive Builds (prints : Node → Doc → Prop) (node : Node) : List (List Nat) → Doc → Prop where
  | child {path : List Nat} {doc : Doc} (hdoc : ChildAt prints node path doc) :
      Builds prints node [path] doc
  | nil : Builds prints node [] nil
  | text (content : String) : Builds prints node [] (text content)
  | hardLine : Builds prints node [] hardLine
  | empty : Builds prints node [] (concat [])
  | snoc {paths paths' : List (List Nat)} {parts : List Doc} {part : Doc}
      (hparts : Builds prints node paths (concat parts)) (hpart : Builds prints node paths' part) :
      Builds prints node (paths ++ paths') (concat (parts ++ [part]))
  | append {paths paths' : List (List Nat)} {first second : Doc}
      (hfirst : Builds prints node paths first) (hsecond : Builds prints node paths' second) :
      Builds prints node (paths ++ paths') (first ++ second)
  | group {paths : List (List Nat)} {inner : Doc} (hinner : Builds prints node paths inner) :
      Builds prints node paths (.group inner)
  | root {paths : List (List Nat)} {inner : Doc} (hinner : Builds prints node paths inner) :
      Builds prints node paths (.root inner)

/-- The same for several documents one after the other. -/
inductive BuildsAll (prints : Node → Doc → Prop) (node : Node) :
    List (List Nat) → List Doc → Prop where
  | nil : BuildsAll prints node [] []
  | cons {paths paths' : List (List Nat)} {doc : Doc} {docs : List Doc}
      (hdoc : Builds prints node paths doc) (hdocs : BuildsAll prints node paths' docs) :
      BuildsAll prints node (paths ++ paths') (doc :: docs)

/-! ## What is built keeps what the children have -/

/-- A property of documents that goes through everything that plain rules do. -/
structure Closed (good : Doc → Prop) : Prop where
  nil : good nil
  text : ∀ content, good (text content)
  hardLine : good hardLine
  empty : good (concat [])
  snoc : ∀ {parts part}, good (concat parts) → good part → good (concat (parts ++ [part]))
  group : ∀ {inner}, good inner → good (.group inner)
  root : ∀ {inner}, good inner → good (.root inner)

theorem Closed.append
    {good : Doc → Prop} (hgood : Closed good) {first second : Doc}
    (hfirst : good first) (hsecond : good second) : good (first ++ second) := by
  have hpair : good (concat [first, second]) := hgood.snoc (hgood.snoc hgood.empty hfirst) hsecond
  cases first with
  | nil => exact hsecond
  | concat parts => exact hgood.snoc hfirst hsecond
  | _ => exact hpair

theorem Builds.closed
    {good : Doc → Prop} (hgood : Closed good) {paths : List (List Nat)} {doc : Doc}
    (hbuilds : Builds prints node paths doc)
    (hchildren : ∀ path ∈ paths, ∀ doc, ChildAt prints node path doc → good doc) : good doc := by
  induction hbuilds with
  | child hdoc => exact hchildren _ List.mem_cons_self _ hdoc
  | nil => exact hgood.nil
  | text content => exact hgood.text content
  | hardLine => exact hgood.hardLine
  | empty => exact hgood.empty
  | snoc _ _ ihparts ihpart =>
      rw [List.forall_mem_append] at hchildren
      exact hgood.snoc (ihparts hchildren.1) (ihpart hchildren.2)
  | append _ _ ihfirst ihsecond =>
      rw [List.forall_mem_append] at hchildren
      exact hgood.append (ihfirst hchildren.1) (ihsecond hchildren.2)
  | group _ ih => exact hgood.group (ih hchildren)
  | root _ ih => exact hgood.root (ih hchildren)

/-- What is built contains the document of every child. -/
theorem Builds.contains
    {paths : List (List Nat)} {doc : Doc} (hbuilds : Builds prints node paths doc)
    {path : List Nat} (hpath : path ∈ paths) :
    ∃ part, ChildAt prints node path part ∧ doc.Contains part := by
  induction hbuilds with
  | @child path' doc hdoc =>
      rw [List.mem_singleton] at hpath
      exact ⟨doc, hpath ▸ hdoc, .refl doc⟩
  | nil => cases hpath
  | text content => cases hpath
  | hardLine => cases hpath
  | empty => cases hpath
  | @snoc _ _ parts last _ _ ihparts ihpart =>
      rcases List.mem_append.1 hpath with hpath | hpath
      · obtain ⟨part, hpart, hcontains⟩ := ihparts hpath
        exact ⟨part, hpart, hcontains.snoc last⟩
      · obtain ⟨part, hpart, hcontains⟩ := ihpart hpath
        exact ⟨part, hpart, .of_mem (by simp) hcontains⟩
  | @append _ _ first second _ _ ihfirst ihsecond =>
      rcases List.mem_append.1 hpath with hpath | hpath
      · obtain ⟨part, hpart, hcontains⟩ := ihfirst hpath
        exact ⟨part, hpart, hcontains.append_left second⟩
      · obtain ⟨part, hpart, hcontains⟩ := ihsecond hpath
        exact ⟨part, hpart, hcontains.append_right first⟩
  | group _ ih =>
      obtain ⟨part, hpart, hcontains⟩ := ih hpath
      exact ⟨part, hpart, hcontains.inside (.group .hole)⟩
  | root _ ih =>
      obtain ⟨part, hpart, hcontains⟩ := ih hpath
      exact ⟨part, hpart, hcontains.inside (.root .hole)⟩

/-! ## Rows of documents -/

namespace BuildsAll

theorem append
    {paths paths' : List (List Nat)} {docs docs' : List Doc}
    (hdocs : BuildsAll prints node paths docs) (hdocs' : BuildsAll prints node paths' docs') :
    BuildsAll prints node (paths ++ paths') (docs ++ docs') := by
  induction hdocs with
  | nil => exact hdocs'
  | cons hdoc _ ih =>
      rw [List.append_assoc]
      exact .cons hdoc ih

theorem single
    {paths : List (List Nat)} {doc : Doc} (hdoc : Builds prints node paths doc) :
    BuildsAll prints node paths [doc] := by
  rw [← List.append_nil paths]
  exact .cons hdoc .nil

theorem fixed
    {paths : List (List Nat)} {doc : Doc} {docs : List Doc} (hdoc : Builds prints node [] doc)
    (hdocs : BuildsAll prints node paths docs) : BuildsAll prints node paths (doc :: docs) :=
  .cons hdoc hdocs

theorem behind
    {front paths : List (List Nat)} {parts docs : List Doc}
    (hparts : Builds prints node front (concat parts)) (hdocs : BuildsAll prints node paths docs) :
    Builds prints node (front ++ paths) (concat (parts ++ docs)) := by
  induction hdocs generalizing front parts with
  | nil => simpa using hparts
  | @cons paths paths' doc docs hdoc _ ih =>
      have hall := ih (hparts.snoc hdoc)
      rwa [List.append_assoc, List.append_assoc] at hall

theorem concat
    {paths : List (List Nat)} {docs : List Doc} (hdocs : BuildsAll prints node paths docs) :
    Builds prints node paths (concat docs) :=
  behind .empty hdocs

theorem join
    {paths : List (List Nat)} {docs : List Doc} {separator : Doc}
    (hseparator : Builds prints node [] separator) (hdocs : BuildsAll prints node paths docs) :
    Builds prints node paths (join separator docs) := by
  refine concat ?_
  induction hdocs with
  | nil => exact .nil
  | @cons paths paths' doc docs hdoc hdocs ih =>
      cases docs with
      | nil =>
          cases hdocs
          exact .cons hdoc .nil
      | cons next docs =>
          rw [List.intersperse_cons_cons]
          exact .cons hdoc (fixed hseparator ih)

end BuildsAll

/-! ## Children at slot paths -/

theorem visits_children
    {path : List Nat} {index : Nat} {items : List Slot} {docs : List Doc}
    (hitems : ∀ offset child, items[offset]? = some (.node child) →
      node.childAt (path ++ [index + offset]) = .ok child)
    (hvisits : Visits prints items docs) :
    List.Forall₂ (ChildAt prints node) (Node.childPathsFrom path index items) docs := by
  induction hvisits generalizing index with
  | nil => exact .nil
  | @node child items doc docs hdoc _ ih =>
      refine .cons ⟨child, hitems 0 child rfl, hdoc⟩ (ih ?_)
      intro offset child hchild
      have hfound := hitems (offset + 1) child hchild
      rwa [Nat.add_comm offset, ← Nat.add_assoc] at hfound
  | absent _ ih =>
      refine ih ?_
      intro offset child hchild
      have hfound := hitems (offset + 1) child hchild
      rwa [Nat.add_comm offset, ← Nat.add_assoc] at hfound

/-- The documents of the children in a list, each with its slot path. -/
theorem ChildrenAt.paths
    {path : List Nat} {docs : List Doc} (hdocs : ChildrenAt prints node path docs) :
    List.Forall₂ (ChildAt prints node) (node.childPaths path) docs := by
  obtain ⟨items, hitems, hvisits⟩ := hdocs
  rw [Node.childPaths, hitems]
  refine visits_children ?_ hvisits
  intro offset child hchild
  rw [Node.listAt_eq_ok_iff] at hitems
  rw [Nat.zero_add, Node.childAt_eq_ok_iff, Node.slotAt_concat_eq_ok_iff]
  exact ⟨items, hitems, hchild⟩

theorem buildsAll_children
    {paths : List (List Nat)} {docs : List Doc}
    (hdocs : List.Forall₂ (ChildAt prints node) paths docs) :
    BuildsAll prints node paths docs := by
  induction hdocs with
  | nil => exact .nil
  | cons hdoc _ ih => exact .cons (.child hdoc) ih

theorem ChildrenAt.builds
    {path : List Nat} {docs : List Doc} (hdocs : ChildrenAt prints node path docs) :
    BuildsAll prints node (node.childPaths path) docs :=
  buildsAll_children hdocs.paths

theorem childrenAt?_builds
    {path : List Nat} {docs : List Doc} (hdocs : ChildrenAt? prints node path docs) :
    BuildsAll prints node (node.childPaths path) docs := by
  rcases hdocs with ⟨-, hdocs⟩ | ⟨hhas, rfl⟩
  · exact hdocs.builds
  · rw [Node.childPaths_of_not_has hhas]
    exact .nil

theorem childAt?_builds
    {path : List Nat} {doc : Option Doc} (hdoc : ChildAt? prints node path doc) :
    BuildsAll prints node (node.pathIfPresent path) doc.toList := by
  unfold Node.pathIfPresent
  cases doc with
  | none =>
      have hhas : node.has path = false := hdoc
      rw [hhas]
      exact .nil
  | some doc =>
      obtain ⟨hhas, hdoc⟩ := hdoc
      rw [hhas]
      exact .single (.child hdoc)

theorem slotDocs_builds
    {index : Nat} {slots : List Slot} {docs : List (List Doc)}
    (hslots : node.slots.drop index = slots)
    (hdocs : List.Forall₂ (SlotDocs prints) slots docs) :
    BuildsAll prints node (Node.slotPathsFrom index slots) docs.flatten := by
  induction hdocs generalizing index with
  | nil => exact .nil
  | @cons slot first slots docs hfirst _ ih =>
      obtain ⟨hslot, hdrop⟩ := Node.slotAt_of_drop_eq_cons hslots
      have hrest := ih hdrop
      rw [List.flatten_cons]
      cases hfirst with
      | absent => exact hrest
      | token content => exact .fixed (.text content) hrest
      | @node child doc hdoc =>
          have hchild : ChildAt prints node [index] doc :=
            ⟨child, Node.childAt_eq_ok_iff.2 hslot, hdoc⟩
          exact .cons (.child hchild) hrest
      | list hvisits =>
          rename_i items
          have hchildren : ChildrenAt prints node [index] first :=
            ⟨items, Node.listAt_eq_ok_iff.2 hslot, hvisits⟩
          have hitems := hchildren.builds
          rw [Node.childPaths_of_list hslot] at hitems
          exact hitems.append hrest

theorem optionalParams_build
    {count index : Nat} {docs : List Doc}
    (hdocs : List.Forall₂ (OptionalParam prints node) (List.range' index count) docs) :
    BuildsAll prints node (Node.optionalParamPaths count index) docs := by
  induction count generalizing index docs with
  | zero =>
      cases hdocs
      exact .nil
  | succ count ih =>
      cases hdocs with
      | cons hparam hrest =>
          cases hparam with
          | intro hname hdefault =>
              have hpair : BuildsAll prints node [[1, index, 0], [1, index, 1]] _ :=
                .cons (.child hname) (.fixed (.text " = ") (.single (.child hdefault)))
              exact .cons hpair.concat (ih hrest)

theorem keywordParam_builds
    {index : Nat} {doc : Doc} (hparam : KeywordParam prints node index doc) :
    Builds prints node ([4, index, 0] :: node.pathIfPresent [4, index, 1]) doc := by
  cases hparam with
  | required hlabel hdefault =>
      have hhas : node.has [4, index, 1] = false := hdefault
      rw [Node.pathIfPresent, hhas]
      exact .child hlabel
  | optional hlabel hdefault =>
      have hvalue := childAt?_builds hdefault
      exact (BuildsAll.cons (.child hlabel) (.fixed (.text " ") hvalue)).concat

theorem keywordParams_build
    {count index : Nat} {docs : List Doc}
    (hdocs : List.Forall₂ (KeywordParam prints node) (List.range' index count) docs) :
    BuildsAll prints node (node.keywordParamPaths count index) docs := by
  induction count generalizing index docs with
  | zero =>
      cases hdocs
      exact .nil
  | succ count ih =>
      cases hdocs with
      | cons hparam hrest =>
          have hentry : Builds prints node ([4, index, 0] :: node.pathIfPresent [4, index, 1]) _ :=
            keywordParam_builds hparam
          exact .cons hentry (ih hrest)

/-! ## Plain rules -/

theorem params_builds
    {doc : Doc} (hmakes : Makes prints node .params doc) :
    Builds prints node (node.readPathsAs .params) doc := by
  cases hmakes with
  | params hrequired hoptional hrest hpost hkeywords hkeywordRest hblock =>
      have hentries :=
        (childrenAt?_builds hrequired).append <| (optionalParams_build hoptional).append <|
          (childAt?_builds hrest).append <| (childrenAt?_builds hpost).append <|
            (keywordParams_build hkeywords).append <| (childAt?_builds hkeywordRest).append <|
              childAt?_builds hblock
      simp only [← List.append_assoc] at hentries
      have hjoin := hentries.join (.text ", ")
      simpa only [Node.readPathsAs, List.append_assoc] using hjoin

theorem sigil_builds
    {mark : String} {name : Option Doc} (hname : ChildAt? prints node [0] name) :
    Builds prints node (node.pathIfPresent [0]) (text mark ++ name.getD nil) := by
  have hbuilds := childAt?_builds hname
  cases name with
  | none =>
      have hhas : node.has [0] = false := hname
      rw [Node.pathIfPresent, hhas]
      exact .append (.text mark) .nil
  | some name =>
      obtain ⟨hhas, hname⟩ := hname
      rw [Node.pathIfPresent, hhas]
      exact .append (.text mark) (.child hname)

theorem between_builds
    {paths : List (List Nat)} {docs : List Doc} (mark mark' : String)
    (hdocs : BuildsAll prints node paths docs) :
    Builds prints node paths (text mark ++ concat docs ++ text mark') := by
  rw [← List.append_nil paths]
  exact .append (.append (.text mark) hdocs.concat) (.text mark')

/-- A plain rule builds its document from the documents of the children that it
reads. -/
theorem Makes.builds
    {event : ParserEvent} {doc : Doc} (hplain : event.isPlain = true)
    (hmakes : Makes prints node event doc) :
    Builds prints node (node.readPathsAs event) doc := by
  cases hmakes with
  | aliasPair hdocs => exact .append (.text "alias ") (hdocs.builds.join (.text " "))
  | arguments hdocs hblock =>
      have hhas : node.has [1] = false := hblock
      rw [Node.readPathsAs, Node.pathIfPresent, hhas, if_neg Bool.false_ne_true, List.append_nil]
      exact .group (hdocs.builds.join (.text ", "))
  | argsAddBlock hdocs hblock =>
      obtain ⟨hhas, hblock⟩ := hblock
      rw [Node.readPathsAs, Node.pathIfPresent, hhas, if_pos rfl]
      exact .group (.append (hdocs.builds.join (.text ", ")) (.child hblock))
  | assign hdocs => exact hdocs.builds.join (.text " = ")
  | @binary operator left right hoperator hleft hright =>
      have hseparator : Builds prints node [] (concat [text " ", text operator, text " "]) :=
        (BuildsAll.fixed (.text " ") (.fixed (.text operator) (.single (.text " ")))).concat
      exact (BuildsAll.cons (.child hleft) (.single (.child hright))).join hseparator
  | blockArg hname => exact sigil_builds hname
  | bodyStmt hdocs => cases hplain
  | @call connector receiver method hconnector hreceiver hmethod =>
      exact (BuildsAll.cons (.child hreceiver) (.single (.child hmethod))).join (.text connector)
  | classDef hname hparent hbody => cases hplain
  | subclassDef hname hparent hbody => cases hplain
  | command hdocs => exact hdocs.builds.join (.text " ")
  | constRef hdoc => exact .child hdoc
  | methodDef hname hparameters hbody => cases hplain
  | kwRestParam hname => exact sigil_builds hname
  | moduleDef hname hbody => cases hplain
  | params hrequired hoptional hrest hpost hkeywords hkeywordRest hblock =>
      exact params_builds (.params hrequired hoptional hrest hpost hkeywords hkeywordRest hblock)
  | paren hdocs =>
      have hinner := slotDocs_builds List.drop_zero hdocs
      have hall := BuildsAll.fixed (.text "(") (hinner.append (.single (.text ")")))
      rw [List.append_nil] at hall
      exact hall.concat
  | program hdocs => exact .root (hdocs.builds.join .hardLine)
  | restParam hname => exact sigil_builds hname
  | stringContent hquote hdocs => exact between_builds _ _ hdocs.builds
  | stringEmbexpr hdocs => exact between_builds _ _ hdocs.builds
  | stringLiteral hdocs => exact hdocs.builds.concat
  | symbol hdocs => exact .append (.text ":") hdocs.builds.concat
  | symbolLiteral hdocs => exact hdocs.builds.concat
  | varField hdocs => exact hdocs.builds.concat
  | varRef hdoc => exact .child hdoc
  | vcall hdocs => exact hdocs.builds.concat
  | voidStmt => exact .nil

end Print

end TreeFormat
