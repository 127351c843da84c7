import TreeFormat.Proofs.Print.Definitions

/-!
# Outlines

The outline of a node lists from left to right what the rule of the node writes itself and
which children it prints in between.  What a rule makes of a node fills the outline: the
leaves of the children stand in their places between those of the rule
(`Print.Makes.fills`).

An outline says less than a document.  Groups and indentation are gone, and what is left is
the order in which things are written.
-/

namespace TreeFormat

/-- What a rule writes in one place. -/
inductive Print.Part where
  /-- A leaf of the rule. -/
  | fixed (leaf : Leaf)
  /-- What the child at a slot path prints to. -/
  | child (path : List Nat)
  deriving DecidableEq

namespace Print.Part

/-- A text of the rule. -/
def text (content : String) : Part :=
  fixed (.text content)

/-- Entries with a separator between them. -/
def row (separator : List Part) (entries : List (List Part)) : List Part :=
  (entries.intersperse separator).flatten

/-- A row of children. -/
def children (separator : List Part) (paths : List (List Nat)) : List Part :=
  row separator (paths.map fun path => [child path])

end Print.Part

namespace Node

open Print (Part)

/-- What `paren` writes for slots counted from an index. -/
def slotParts : Nat → List Slot → List Part
  | _, [] => []
  | index, .absent :: slots => slotParts (index + 1) slots
  | index, .token content :: slots => .text content :: slotParts (index + 1) slots
  | index, .node _ :: slots => .child [index] :: slotParts (index + 1) slots
  | index, .list items :: slots =>
    (childPathsFrom [index] 0 items).map .child ++ slotParts (index + 1) slots

/-- What stands between the two operands of a node with a token in its second slot. -/
def infixParts (node : Node) (around : List Part) : List Part :=
  match node.tokenAt [1] with
  | .ok content => .child [0] :: (around ++ .text content :: (around ++ [.child [2]]))
  | .error _ => []

/-- What the body of a class or a module and what comes behind it is written as. -/
def bodyParts (node : Node) (slot : Nat) : List Part :=
  (if node.breaksInFront slot then [.fixed .hardLine] else []) ++
    [.child [slot], .fixed .hardLine, .text "end", .fixed .literalLine]

/-- The entries of a parameter list. -/
def paramParts (node : Node) : List (List Part) :=
  let single (path : List Nat) : List Part := [.child path]
  (node.childPaths [0]).map single ++
    ((List.range' 0 (node.listLength [1])).map fun index =>
      [.child [1, index, 0], .text " = ", .child [1, index, 1]]) ++
    (node.pathIfPresent [2]).map single ++ (node.childPaths [3]).map single ++
    ((List.range' 0 (node.listLength [4])).map fun index =>
      .child [4, index, 0] ::
        (node.pathIfPresent [4, index, 1]).flatMap fun path => [.text " ", .child path]) ++
    (node.pathIfPresent [5]).map single ++ (node.pathIfPresent [6]).map single

/-- What the rule of a composite kind writes. -/
def outlineAs (node : Node) : ParserEvent → List Part
  | .aliasPair => .text "alias " :: Part.children [.text " "] (node.childPaths [])
  | .argsAddBlock =>
    Part.children [.text ", "] (node.childPaths [0]) ++ (node.pathIfPresent [1]).map .child
  | .assign => Part.children [.text " = "] (node.childPaths [])
  | .binary => node.infixParts [.text " "]
  | .blockArg => .text "&" :: (node.pathIfPresent [0]).map .child
  | .bodyStmt => Part.children [.fixed .line] (node.childPaths [0])
  | .call => node.infixParts []
  | .classDef =>
    .text "class " :: .child [0] ::
      ((node.pathIfPresent [1]).flatMap fun path => [.text " < ", .child path]) ++
        node.bodyParts 2
  | .command => Part.children [.text " "] (node.childPaths [])
  | .constRef | .varRef => [.child [0]]
  | .methodDef =>
    [.fixed .hardLine, .text "def ", .child [0], .child [1], .fixed .hardLine, .child [2],
      .fixed .hardLine, .text "end"]
  | .kwRestParam => .text "**" :: (node.pathIfPresent [0]).map .child
  | .moduleDef => .fixed .hardLine :: .text "module " :: .child [0] :: node.bodyParts 1
  | .params => Part.row [.text ", "] node.paramParts
  | .paren => .text "(" :: (slotParts 0 node.slots ++ [.text ")"])
  | .program => Part.children [.fixed .hardLine] (node.childPaths [0])
  | .restParam => .text "*" :: (node.pathIfPresent [0]).map .child
  | .stringContent =>
    let quote := if node.slots.any Print.isInterpolation then "\"" else "'"
    .text quote :: ((node.childPaths []).map .child ++ [.text quote])
  | .stringEmbexpr => .text "#\x7b" :: ((node.childPaths [0]).map .child ++ [.text "\x7d"])
  | .symbol => .text ":" :: (node.childPaths []).map .child
  | .stringLiteral | .symbolLiteral | .varField | .vcall => (node.childPaths []).map .child
  | .voidStmt => []

/-- What is written for a node. -/
def outline (node : Node) : List Part :=
  match node.kind with
  | .parser event => node.outlineAs event
  | .scanner _ => node.literal?.toList.map .text
  | .other _ => []

end Node

namespace Print

open Doc (join text concat hardLine literalLine line nil)

variable {prints : Node → Doc → Prop} {node : Node}

/-- The leaves of the children stand in their places between the fixed leaves. -/
inductive Fills (prints : Node → Doc → Prop) (node : Node) : List Part → List Leaf → Prop where
  | nil : Fills prints node [] []
  | fixed {parts : List Part} {leaves : List Leaf} (leaf : Leaf)
      (hrest : Fills prints node parts leaves) :
      Fills prints node (.fixed leaf :: parts) (leaf :: leaves)
  | child {path : List Nat} {doc : Doc} {parts : List Part} {leaves : List Leaf}
      (hdoc : ChildAt prints node path doc) (hrest : Fills prints node parts leaves) :
      Fills prints node (.child path :: parts) (doc.leaves ++ leaves)

namespace Fills

theorem text
    {parts : List Part} {leaves : List Leaf} (content : String)
    (hrest : Fills prints node parts leaves) :
    Fills prints node (.text content :: parts) (.text content :: leaves) :=
  .fixed _ hrest

theorem append
    {parts parts' : List Part} {leaves leaves' : List Leaf}
    (hfirst : Fills prints node parts leaves) (hsecond : Fills prints node parts' leaves') :
    Fills prints node (parts ++ parts') (leaves ++ leaves') := by
  induction hfirst with
  | nil => exact hsecond
  | fixed leaf _ ih => exact .fixed leaf ih
  | child hdoc _ ih =>
      rw [List.append_assoc]
      exact .child hdoc ih

theorem single {path : List Nat} {doc : Doc} (hdoc : ChildAt prints node path doc) :
    Fills prints node [.child path] doc.leaves := by
  rw [← List.append_nil doc.leaves]
  exact .child hdoc .nil

/-- What fills an outline is split where the outline is. -/
theorem split
    {parts parts' : List Part} {leaves : List Leaf}
    (hfills : Fills prints node (parts ++ parts') leaves) :
    ∃ first second, leaves = first ++ second ∧
      Fills prints node parts first ∧ Fills prints node parts' second := by
  induction parts generalizing leaves with
  | nil => exact ⟨[], leaves, rfl, .nil, hfills⟩
  | cons part parts ih =>
      cases hfills with
      | fixed leaf hrest =>
          obtain ⟨first, second, rfl, hfirst, hsecond⟩ := ih hrest
          exact ⟨leaf :: first, second, rfl, .fixed leaf hfirst, hsecond⟩
      | @child path doc _ _ hdoc hrest =>
          obtain ⟨first, second, rfl, hfirst, hsecond⟩ := ih hrest
          exact ⟨doc.leaves ++ first, second, (List.append_assoc _ _ _).symm,
            .child hdoc hfirst, hsecond⟩

theorem eq_of_fixed
    {marks leaves : List Leaf} (hfills : Fills prints node (marks.map .fixed) leaves) :
    leaves = marks := by
  induction marks generalizing leaves with
  | nil =>
      cases hfills
      rfl
  | cons mark marks ih =>
      cases hfills with
      | fixed leaf hrest => rw [ih hrest]

end Fills

/-- Documents fill the entries of an outline one by one. -/
def FillsAll (prints : Node → Doc → Prop) (node : Node) : List (List Part) → List Doc → Prop :=
  List.Forall₂ fun parts doc => Fills prints node parts doc.leaves

namespace FillsAll

theorem append
    {entries entries' : List (List Part)} {docs docs' : List Doc}
    (hfirst : FillsAll prints node entries docs) (hsecond : FillsAll prints node entries' docs') :
    FillsAll prints node (entries ++ entries') (docs ++ docs') :=
  List.rel_append hfirst hsecond

theorem row
    {entries : List (List Part)} {docs : List Doc} {parts : List Part} {separator : Doc}
    (hdocs : FillsAll prints node entries docs)
    (hseparator : Fills prints node parts separator.leaves) :
    Fills prints node (Part.row parts entries) (join separator docs).leaves := by
  rw [Doc.leaves_join]
  induction hdocs with
  | nil => exact .nil
  | @cons entry doc entries docs hdoc hdocs ih =>
      cases hdocs with
      | nil => simpa [Part.row] using hdoc
      | cons hnext hrest => simpa [Part.row] using hdoc.append (hseparator.append ih)

theorem children
    {paths : List (List Nat)} {docs : List Doc}
    (hdocs : List.Forall₂ (ChildAt prints node) paths docs) :
    FillsAll prints node (paths.map fun path => [.child path]) docs := by
  rw [FillsAll, List.forall₂_map_left_iff]
  exact hdocs.imp fun _ _ hdoc => .single hdoc

end FillsAll

theorem fills_children
    {paths : List (List Nat)} {docs : List Doc}
    (hdocs : List.Forall₂ (ChildAt prints node) paths docs) :
    Fills prints node (paths.map .child) (docs.flatMap Doc.leaves) := by
  induction hdocs with
  | nil => exact .nil
  | cons hdoc _ ih => exact .child hdoc ih

/-- A child that may be absent, as the row of its paths and documents. -/
theorem childAt?_paths {path : List Nat} {doc : Option Doc}
    (hdoc : ChildAt? prints node path doc) :
    List.Forall₂ (ChildAt prints node) (node.pathIfPresent path) doc.toList := by
  cases doc with
  | none =>
      have hhas : node.has path = false := hdoc
      rw [Node.pathIfPresent, hhas]
      exact .nil
  | some doc =>
      obtain ⟨hhas, hdoc⟩ := hdoc
      rw [Node.pathIfPresent, hhas]
      exact .cons hdoc .nil

theorem childrenAt?_paths {path : List Nat} {docs : List Doc}
    (hdocs : ChildrenAt? prints node path docs) :
    List.Forall₂ (ChildAt prints node) (node.childPaths path) docs := by
  rcases hdocs with ⟨-, hdocs⟩ | ⟨hhas, rfl⟩
  · exact hdocs.paths
  · rw [Node.childPaths_of_not_has hhas]
    exact .nil

theorem fills_sigil {mark : String} {name : Option Doc} (hname : ChildAt? prints node [0] name) :
    Fills prints node (.text mark :: (node.pathIfPresent [0]).map .child)
      (text mark ++ name.getD nil).leaves := by
  have hleaves : (text mark ++ name.getD nil).leaves =
      .text mark :: name.toList.flatMap Doc.leaves := by
    cases name with
    | none => rfl
    | some name => simp [Doc.leaves]
  rw [hleaves]
  exact .text mark (fills_children (childAt?_paths hname))

theorem fills_slots
    {index : Nat} {slots : List Slot} {docs : List (List Doc)}
    (hslots : node.slots.drop index = slots)
    (hdocs : List.Forall₂ (SlotDocs prints) slots docs) :
    Fills prints node (Node.slotParts index slots) (docs.flatten.flatMap Doc.leaves) := by
  induction hdocs generalizing index with
  | nil => exact .nil
  | @cons slot first slots docs hfirst _ ih =>
      obtain ⟨hslot, hdrop⟩ := Node.slotAt_of_drop_eq_cons hslots
      have hrest := ih hdrop
      rw [List.flatten_cons, List.flatMap_append]
      cases hfirst with
      | absent => exact hrest
      | token content => exact .text content hrest
      | @node child doc hdoc =>
          have hchild : ChildAt prints node [index] doc :=
            ⟨child, Node.childAt_eq_ok_iff.2 hslot, hdoc⟩
          rw [List.flatMap_singleton]
          exact .child hchild hrest
      | list hvisits =>
          rename_i items
          have hchildren : ChildrenAt prints node [index] first :=
            ⟨items, Node.listAt_eq_ok_iff.2 hslot, hvisits⟩
          have hpaths := hchildren.paths
          rw [Node.childPaths_of_list hslot] at hpaths
          exact (fills_children hpaths).append hrest

theorem fillsAll_optionalParams
    {indices : List Nat} {docs : List Doc}
    (hdocs : List.Forall₂ (OptionalParam prints node) indices docs) :
    FillsAll prints node
      (indices.map fun index => [.child [1, index, 0], .text " = ", .child [1, index, 1]])
      docs := by
  rw [FillsAll, List.forall₂_map_left_iff]
  refine hdocs.imp ?_
  rintro index _ ⟨hname, hdefault⟩
  simpa [Doc.leaves, Doc.allLeaves_eq_flatMap] using
    Fills.child hname (.text " = " (.single hdefault))

theorem fillsAll_keywordParams
    {indices : List Nat} {docs : List Doc}
    (hdocs : List.Forall₂ (KeywordParam prints node) indices docs) :
    FillsAll prints node
      (indices.map fun index => .child [4, index, 0] ::
        (node.pathIfPresent [4, index, 1]).flatMap fun path => [.text " ", .child path]) docs := by
  rw [FillsAll, List.forall₂_map_left_iff]
  refine hdocs.imp ?_
  intro index doc hparam
  cases hparam with
  | required hlabel hdefault =>
      have hhas : node.has [4, index, 1] = false := hdefault
      simpa [Node.pathIfPresent, hhas] using Fills.single hlabel
  | optional hlabel hdefault =>
      obtain ⟨hhas, hdefault⟩ := hdefault
      simpa [Node.pathIfPresent, hhas, Doc.leaves, Doc.allLeaves_eq_flatMap] using
        Fills.child hlabel (.text " " (.single hdefault))

theorem fills_params {doc : Doc} (hmakes : Makes prints node .params doc) :
    Fills prints node (node.outlineAs .params) doc.leaves := by
  cases hmakes with
  | params hrequired hoptional hrest hpost hkeywords hkeywordRest hblock =>
      have hpositional := (FillsAll.children (childrenAt?_paths hrequired)).append
        (fillsAll_optionalParams hoptional)
      have hunnamed := (hpositional.append (.children (childAt?_paths hrest))).append
        (.children (childrenAt?_paths hpost))
      have hnamed := (hunnamed.append (fillsAll_keywordParams hkeywords)).append
        (.children (childAt?_paths hkeywordRest))
      exact FillsAll.row (hnamed.append (.children (childAt?_paths hblock))) (.text ", " .nil)

theorem fills_body {slot : Nat} {body : Doc} (hbody : ChildAt prints node [slot] body) :
    Fills prints node (node.bodyParts slot)
      ((onOwnLine node slot body).leaves ++ [.hardLine, .text "end", .literalLine]) := by
  have hending : Fills prints node [.fixed .hardLine, .text "end", .fixed .literalLine]
      [.hardLine, .text "end", .literalLine] := .fixed _ (.text "end" (.fixed _ .nil))
  rw [onOwnLine_eq, Node.bodyParts]
  by_cases hbreaks : node.breaksInFront slot = true
  · rw [if_pos hbreaks, if_pos hbreaks]
    simpa [Doc.leaves, Doc.allLeaves_eq_flatMap] using Fills.fixed .hardLine (.child hbody hending)
  · rw [if_neg hbreaks, if_neg hbreaks]
    exact .child hbody hending

/-- What a rule makes of a node fills the outline of the node. -/
theorem Makes.fills
    {event : ParserEvent} {doc : Doc} (hmakes : Makes prints node event doc) :
    Fills prints node (node.outlineAs event) doc.leaves := by
  cases hmakes with
  | aliasPair hdocs =>
      rw [Doc.leaves_append]
      exact .text "alias " (FillsAll.row (.children hdocs.paths) (.text " " .nil))
  | arguments hdocs hblock =>
      have hhas : node.has [1] = false := hblock
      rw [Node.outlineAs, Node.pathIfPresent, hhas, if_neg Bool.false_ne_true, List.map_nil,
        List.append_nil]
      exact FillsAll.row (.children hdocs.paths) (.text ", " .nil)
  | argsAddBlock hdocs hblock =>
      obtain ⟨hhas, hblock⟩ := hblock
      rw [Node.outlineAs, Node.pathIfPresent, hhas, if_pos rfl, Doc.leaves, Doc.leaves_append]
      exact (FillsAll.row (.children hdocs.paths) (.text ", " .nil)).append (.single hblock)
  | assign hdocs => exact FillsAll.row (.children hdocs.paths) (.text " = " .nil)
  | binary hoperator hleft hright =>
      rw [Node.outlineAs, Node.infixParts, hoperator]
      simpa [Doc.leaves, Doc.allLeaves_eq_flatMap] using
        Fills.child hleft (.text " " (.text _ (.text " " (.single hright))))
  | blockArg hname => exact fills_sigil hname
  | bodyStmt hdocs => exact FillsAll.row (.children hdocs.paths) (.fixed .line .nil)
  | call hconnector hreceiver hmethod =>
      rw [Node.outlineAs, Node.infixParts, hconnector]
      simpa [Doc.leaves, Doc.allLeaves_eq_flatMap] using
        Fills.child hreceiver (.text _ (.single hmethod))
  | classDef hname hparent hbody =>
      have hhas : node.has [1] = false := hparent
      simpa [Node.outlineAs, Node.pathIfPresent, hhas, Doc.leaves, Doc.allLeaves_eq_flatMap] using
        Fills.text "class " (.child hname (fills_body hbody))
  | subclassDef hname hparent hbody =>
      obtain ⟨hhas, hparent⟩ := hparent
      simpa [Node.outlineAs, Node.pathIfPresent, hhas, Doc.leaves, Doc.allLeaves_eq_flatMap] using
        Fills.text "class " (.child hname (.text " < " (.child hparent (fills_body hbody))))
  | command hdocs => exact FillsAll.row (.children hdocs.paths) (.text " " .nil)
  | constRef hdoc => exact .single hdoc
  | methodDef hname hparameters hbody =>
      have hending : Fills prints node [.fixed .hardLine, .text "end"] [.hardLine, .text "end"] :=
        .fixed _ (.text "end" .nil)
      simpa [Node.outlineAs, Doc.leaves, Doc.allLeaves_eq_flatMap] using
        Fills.fixed .hardLine <| .text "def " <| .child hname <| .child hparameters <|
          .fixed .hardLine <| .child hbody hending
  | kwRestParam hname => exact fills_sigil hname
  | moduleDef hname hbody =>
      simpa [Node.outlineAs, Doc.leaves, Doc.allLeaves_eq_flatMap] using
        Fills.fixed .hardLine (.text "module " (.child hname (fills_body hbody)))
  | params hrequired hoptional hrest hpost hkeywords hkeywordRest hblock =>
      exact fills_params (.params hrequired hoptional hrest hpost hkeywords hkeywordRest hblock)
  | paren hdocs =>
      simpa [Node.outlineAs, Doc.leaves, Doc.allLeaves_eq_flatMap] using
        Fills.text "(" ((fills_slots List.drop_zero hdocs).append (.text ")" .nil))
  | program hdocs => exact FillsAll.row (.children hdocs.paths) (.fixed .hardLine .nil)
  | restParam hname => exact fills_sigil hname
  | @stringContent quote _ hquote hdocs =>
      rw [Node.outlineAs, ← hquote]
      simpa [Doc.leaves, Doc.allLeaves_eq_flatMap] using
        Fills.text quote ((fills_children hdocs.paths).append (.text quote .nil))
  | stringEmbexpr hdocs =>
      simpa [Node.outlineAs, Doc.leaves, Doc.allLeaves_eq_flatMap] using
        Fills.text "#\x7b" ((fills_children hdocs.paths).append (.text "\x7d" .nil))
  | stringLiteral hdocs => simpa [Node.outlineAs] using fills_children hdocs.paths
  | symbol hdocs =>
      simpa [Node.outlineAs, Doc.leaves, Doc.allLeaves_eq_flatMap] using
        Fills.text ":" (fills_children hdocs.paths)
  | symbolLiteral hdocs => simpa [Node.outlineAs] using fills_children hdocs.paths
  | varField hdocs => simpa [Node.outlineAs] using fills_children hdocs.paths
  | varRef hdoc => exact .single hdoc
  | vcall hdocs => simpa [Node.outlineAs] using fills_children hdocs.paths
  | voidStmt => exact .nil

end Print

end TreeFormat
