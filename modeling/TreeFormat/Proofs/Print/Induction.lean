import TreeFormat.Proofs.Print.Makes
import TreeFormat.Proofs.Tree.Lookups

/-!
# Induction over printing

Every rule makes what `Print.Makes` says if the visits of the children do.  So a
relation of nodes and documents that `Print.Makes` carries over from the children to
the node holds of every tree that prints (`Node.print_induction`).
-/

namespace TreeFormat

namespace Print

open Doc (join text concat hardLine literalLine line nil)
open Walk (Ensures Visits)

/-! ## Parts of rules -/

section Rules

variable {prints : Node → Doc → Prop} {node : Node} {visit : Printer Doc}
  (hvisit : ∀ child, child.height < node.height → visit.Ensures child (prints child))

include hvisit

theorem child_ensures (path : List Nat) :
    (child visit path).Ensures node (ChildAt prints node path) :=
  Ensures.call fun child hchild => hvisit child (Node.height_childAt_lt hchild)

theorem children_ensures (path : List Nat) :
    (children visit path).Ensures node (ChildrenAt prints node path) := by
  apply Ensures.each
  intro items child hitems hchild
  apply hvisit child
  calc
    child.height = (Slot.node child).height := by rw [Slot.height]
    _ ≤ Slot.heights items := Slot.height_le_heights hchild
    _ < node.height := Node.heights_listAt_lt hitems

theorem child?_ensures (path : List Nat) :
    (child? visit path).Ensures node (ChildAt? prints node path) := by
  refine .bind .node ?_
  rintro _ rfl
  split
  · next hhas =>
      refine .bind (child_ensures hvisit path) ?_
      intro doc hdoc
      exact .pure ⟨hhas, hdoc⟩
  · next hhas => exact .pure (by simpa [ChildAt?] using hhas)

theorem childrenOrNone_ensures (path : List Nat) :
    (childrenOrNone visit path).Ensures node (ChildrenAt? prints node path) := by
  refine .bind .node ?_
  rintro _ rfl
  split
  · next hhas => exact (children_ensures hvisit path).mono fun docs hdocs => .inl ⟨hhas, hdocs⟩
  · next hhas => exact .pure (.inr ⟨by simpa using hhas, rfl⟩)

omit hvisit in
theorem token_ensures (path : List Nat) :
    (token path).Ensures node fun text => node.tokenAt path = .ok text := by
  refine .bind .node ?_
  rintro _ rfl
  exact .ofLookup _

theorem slotsFrom_ensures
    {index : Nat} {slots : List Slot} (hslots : node.slots.drop index = slots) :
    (slotsFrom visit index slots).Ensures node fun docs =>
      ∃ parts, List.Forall₂ (SlotDocs prints) slots parts ∧ docs = parts.flatten := by
  induction slots generalizing index with
  | nil => exact .pure ⟨[], .nil, rfl⟩
  | cons slot slots ih =>
      obtain ⟨hfound, hrest⟩ := Node.slotAt_of_drop_eq_cons hslots
      -- All four kinds of slots go on in the same way.
      have hbehind : ∀ first, SlotDocs prints slot first →
          Ensures (do return first ++ (← slotsFrom visit (index + 1) slots)) node fun docs =>
            ∃ parts, List.Forall₂ (SlotDocs prints) (slot :: slots) parts ∧
              docs = parts.flatten := by
        intro first hfirst
        refine .bind (ih hrest) ?_
        rintro _ ⟨parts, hparts, rfl⟩
        exact .pure ⟨first :: parts, .cons hfirst hparts, rfl⟩
      unfold slotsFrom
      cases slot with
      | absent => exact hbehind [] .absent
      | token content => exact hbehind [text content] (.token content)
      | node inside =>
          refine .bind (child_ensures hvisit [index]) ?_
          rintro doc ⟨child, hchild, hdoc⟩
          rw [Node.childAt_eq_ok_iff, hfound] at hchild
          cases hchild
          exact hbehind [doc] (.node hdoc)
      | list items =>
          refine .bind (children_ensures hvisit [index]) ?_
          rintro docs ⟨found, hitems, hdocs⟩
          rw [Node.listAt_eq_ok_iff, hfound] at hitems
          cases hitems
          exact hbehind docs (.list hdocs)

theorem optionalParams_ensures (count index : Nat) :
    (optionalParams visit count index).Ensures node
      (List.Forall₂ (OptionalParam prints node) (List.range' index count)) := by
  induction count generalizing index with
  | zero => exact .pure .nil
  | succ count ih =>
      refine .bind (child_ensures hvisit _) ?_
      intro name hname
      refine .bind (child_ensures hvisit _) ?_
      intro default hdefault
      refine .bind (ih (index + 1)) ?_
      intro docs hdocs
      exact .pure (.cons ⟨hname, hdefault⟩ hdocs)

theorem keywordParams_ensures (count index : Nat) :
    (keywordParams visit count index).Ensures node
      (List.Forall₂ (KeywordParam prints node) (List.range' index count)) := by
  induction count generalizing index with
  | zero => exact .pure .nil
  | succ count ih =>
      refine .bind (child_ensures hvisit _) ?_
      intro label hlabel
      refine .bind (child?_ensures hvisit _) ?_
      intro default? hdefault
      refine .bind (ih (index + 1)) ?_
      intro docs hdocs
      apply Ensures.pure
      rw [List.range'_succ]
      refine .cons ?_ hdocs
      cases default? with
      | none => exact .required hlabel hdefault
      | some default => exact .optional hlabel hdefault

/-! ## Rules -/

omit hvisit in
/-- A rule that wraps the documents of children up. -/
theorem wrap_ensures
    {α : Type} {event : ParserEvent} {inner : Printer α} {found : α → Prop} {wrap : α → Doc}
    (hinner : inner.Ensures node found)
    (hwrap : ∀ value, found value → Makes prints node event (wrap value)) :
    Ensures (do return wrap (← inner)) node (Makes prints node event) :=
  hinner.bind fun value hvalue => .pure (hwrap value hvalue)

theorem argsAddBlock_ensures :
    (argsAddBlock visit).Ensures node (Makes prints node .argsAddBlock) := by
  refine .bind (children_ensures hvisit [0]) ?_
  intro docs hdocs
  refine .bind (child?_ensures hvisit [1]) ?_
  intro block hblock
  cases block with
  | none => exact .pure (.arguments hdocs hblock)
  | some block => exact .pure (.argsAddBlock hdocs hblock)

/-- A rule that puts the token of the second slot between the two children around it,
and reads it first. -/
theorem operands_ensures
    {event : ParserEvent} {wrap : String → Doc → Doc → Doc}
    (hwrap : ∀ between left right, node.tokenAt [1] = .ok between →
      ChildAt prints node [0] left → ChildAt prints node [2] right →
      Makes prints node event (wrap between left right)) :
    Ensures (do
      let between ← token [1]
      let left ← child visit [0]
      let right ← child visit [2]
      return wrap between left right) node (Makes prints node event) := by
  refine .bind (token_ensures [1]) ?_
  intro between hbetween
  refine .bind (child_ensures hvisit [0]) ?_
  intro left hleft
  refine .bind (child_ensures hvisit [2]) ?_
  intro right hright
  exact .pure (hwrap between left right hbetween hleft hright)

theorem classDef_ensures : (classDef visit).Ensures node (Makes prints node .classDef) := by
  refine .bind (child_ensures hvisit [0]) ?_
  intro name hname
  refine .bind (child?_ensures hvisit [1]) ?_
  intro parent hparent
  refine .bind (child_ensures hvisit [2]) ?_
  intro body hbody
  refine .bind .node ?_
  rintro _ rfl
  cases parent with
  | none => exact .pure (.classDef hname hparent hbody)
  | some parent => exact .pure (.subclassDef hname hparent hbody)

theorem moduleDef_ensures : (moduleDef visit).Ensures node (Makes prints node .moduleDef) := by
  refine .bind (child_ensures hvisit [0]) ?_
  intro name hname
  refine .bind (child_ensures hvisit [1]) ?_
  intro body hbody
  refine .bind .node ?_
  rintro _ rfl
  exact .pure (.moduleDef hname hbody)

theorem methodDef_ensures : (methodDef visit).Ensures node (Makes prints node .methodDef) := by
  refine .bind (child_ensures hvisit [0]) ?_
  intro name hname
  refine .bind (child_ensures hvisit [1]) ?_
  intro parameters hparameters
  refine .bind (child_ensures hvisit [2]) ?_
  intro body hbody
  exact .pure (.methodDef hname hparameters hbody)

theorem params_ensures : (params visit).Ensures node (Makes prints node .params) := by
  refine .bind .node ?_
  rintro _ rfl
  refine .bind (childrenOrNone_ensures hvisit [0]) ?_
  intro required hrequired
  refine .bind (optionalParams_ensures hvisit _ 0) ?_
  intro optional hoptional
  refine .bind (child?_ensures hvisit [2]) ?_
  intro rest hrest
  refine .bind (childrenOrNone_ensures hvisit [3]) ?_
  intro post hpost
  refine .bind (keywordParams_ensures hvisit _ 0) ?_
  intro keywords hkeywords
  refine .bind (child?_ensures hvisit [5]) ?_
  intro keywordRest hkeywordRest
  refine .bind (child?_ensures hvisit [6]) ?_
  intro block hblock
  exact .pure (.params hrequired hoptional hrest hpost hkeywords hkeywordRest hblock)

theorem paren_ensures : (paren visit).Ensures node (Makes prints node .paren) := by
  refine .bind .node ?_
  rintro _ rfl
  refine .bind (slotsFrom_ensures hvisit rfl) ?_
  rintro _ ⟨docs, hdocs, rfl⟩
  exact .pure (.paren hdocs)

theorem stringContent_ensures :
    (stringContent visit).Ensures node (Makes prints node .stringContent) := by
  refine .bind .node ?_
  rintro _ rfl
  refine .bind (children_ensures hvisit []) ?_
  intro docs hdocs
  exact .pure (.stringContent rfl hdocs)

/-- The rule of a kind makes a document from documents of the children. -/
theorem rule_ensures (event : ParserEvent) :
    (rule visit event).Ensures node (Makes prints node event) := by
  have hall := children_ensures hvisit []
  have hlist := children_ensures hvisit [0]
  have hfirst := child_ensures hvisit [0]
  have hname := child?_ensures hvisit [0]
  cases event with
  | aliasPair => exact wrap_ensures hall fun _ => .aliasPair
  | argsAddBlock => exact argsAddBlock_ensures hvisit
  | assign => exact wrap_ensures hall fun _ => .assign
  | binary => exact operands_ensures hvisit fun _ _ _ => .binary
  | blockArg => exact wrap_ensures hname fun _ => .blockArg
  | bodyStmt => exact wrap_ensures hlist fun _ => .bodyStmt
  | call => exact operands_ensures hvisit fun _ _ _ => .call
  | classDef => exact classDef_ensures hvisit
  | command => exact wrap_ensures hall fun _ => .command
  | constRef => exact hfirst.mono fun _ => .constRef
  | methodDef => exact methodDef_ensures hvisit
  | kwRestParam => exact wrap_ensures hname fun _ => .kwRestParam
  | moduleDef => exact moduleDef_ensures hvisit
  | params => exact params_ensures hvisit
  | paren => exact paren_ensures hvisit
  | program => exact wrap_ensures hlist fun _ => .program
  | restParam => exact wrap_ensures hname fun _ => .restParam
  | stringContent => exact stringContent_ensures hvisit
  | stringEmbexpr => exact wrap_ensures hlist fun _ => .stringEmbexpr
  | stringLiteral => exact wrap_ensures hall fun _ => .stringLiteral
  | symbol => exact wrap_ensures hall fun _ => .symbol
  | symbolLiteral => exact wrap_ensures hall fun _ => .symbolLiteral
  | varField => exact wrap_ensures hall fun _ => .varField
  | varRef => exact hfirst.mono fun _ => .varRef
  | vcall => exact wrap_ensures hall fun _ => .vcall
  | voidStmt => exact .pure .voidStmt

end Rules

/-! ## Whole runs -/

theorem located_ensures
    {act : Printer Doc} {node : Node} {promise : Doc → Prop} (hact : act.Ensures node promise) :
    (located act).Ensures node promise := by
  intro cursor state doc after hnode hrun
  rw [run_located] at hrun
  rcases hact' : act.run (cursor, state) with ⟨result, ended⟩
  rw [hact'] at hrun
  cases result with
  | error fault => cases hrun
  | ok found =>
      cases hrun
      exact hact cursor state doc _ hnode hact'

section Runs

variable {prints : Node → Doc → Prop}
  (hliteral : ∀ event content, prints (.leaf (.scanner event) content) (text content))
  (hskipped : ∀ node : Node, node.kind.isKnown = false → prints node nil)
  (hcomposite : ∀ (node : Node) (event : ParserEvent) (doc : Doc),
    node.kind = .parser event → Makes prints node event doc → prints node doc)

include hliteral hskipped hcomposite

theorem within_ensures
    {height : Nat} {node : Node} (hheight : node.height ≤ height) :
    (within height).Ensures node (prints node) := by
  -- A rule visits nodes below its own, so a bound on the height of the node is enough
  -- for the visits.
  induction height generalizing node with
  | zero => exact absurd node.height_pos (Nat.not_lt.2 hheight)
  | succ height ih =>
      refine .bind .cursor ?_
      rintro cursor rfl
      refine .bind (.update _) ?_
      rintro - -
      apply located_ensures
      split
      · next event hkind =>
          refine .bind .node ?_
          rintro _ rfl
          split
          · next kind content hnode =>
              rw [hnode] at hkind ⊢
              cases hkind
              exact .pure (hliteral event content)
          · exact .fail _
      · next event hkind =>
          have hvisit : ∀ child : Node, child.height < cursor.node.height →
              (within height).Ensures child (prints child) := by
            intro child hchild
            exact ih (by omega)
          exact (rule_ensures hvisit event).mono fun doc => hcomposite cursor.node event doc hkind
      · next name hkind =>
          refine .bind .cursor ?_
          intro _ _
          refine .bind (.update _) ?_
          rintro - -
          exact .pure (hskipped cursor.node (by rw [hkind]; rfl))

theorem here_ensures (node : Node) : here.Ensures node (prints node) := by
  refine .bind .node ?_
  rintro _ rfl
  exact within_ensures hliteral hskipped hcomposite (Nat.le_refl _)

end Runs

end Print

/-- A relation of nodes and documents that holds of literals, of nodes without a rule,
and of what the rules make from documents that it relates to the children, holds of every
tree that prints. -/
theorem Node.print_induction
    {prints : Node → Doc → Prop}
    (hliteral : ∀ event content, prints (.leaf (.scanner event) content) (.text content))
    (hskipped : ∀ node : Node, node.kind.isKnown = false → prints node .nil)
    (hcomposite : ∀ (node : Node) (event : ParserEvent) (doc : Doc),
      node.kind = .parser event → Print.Makes prints node event doc → prints node doc)
    {node : Node} {doc : Doc} (hprint : node.print.result = .ok doc) : prints node doc := by
  have hrun : (Print.here.run (Cursor.ofRoot node, #[])).1 = .ok doc := hprint
  have hensures := Print.here_ensures hliteral hskipped hcomposite node
  exact (hensures _ _ _ _ rfl (Prod.ext hrun rfl)).2

end TreeFormat
