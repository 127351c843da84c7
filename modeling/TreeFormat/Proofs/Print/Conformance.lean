import TreeFormat.Proofs.Print.Acceptance
import TreeFormat.Proofs.Tree.Contents

/-!
# Conforming trees print

`Node.Conforms` describes the trees that the rules are made for, kind by kind: what has to
stand in each slot that is read, what may be left out, and that the children conform as
well.  Whatever is in the other slots does not matter.  A conforming node prints wherever it
stands (`Cursor.print_of_conforms`).

The description speaks of slots and their contents.  `Node.Secures` carries it over to the
slot paths that a rule reads, group of slots by group of slots.
-/

namespace TreeFormat

open Slot in
/-- A node of known kind has what its rule asks for, and so have the nodes below that the
rule reads.  A slot that may be missing is described if it is there. -/
inductive Node.Conforms : Node → Prop where
  | scanner (event : ScannerEvent) (content : String) : Conforms (.leaf (.scanner event) content)
  | unknown {node : Node} (hkind : node.kind.isKnown = false) : Conforms node
  | voidStmt {node : Node} (hkind : node.kind = .parser .voidStmt) : Conforms node
  | sequence {event : ParserEvent} {slots : List Slot}
      (hevent : event ∈ [.aliasPair, .assign, .command, .varField, .vcall, .stringLiteral,
        .symbolLiteral, .stringContent, .symbol])
      (hslots : ∀ slot ∈ slots, IsOptional Conforms slot) :
      Conforms (.branch (.parser event) slots)
  | argsAddBlock {node : Node} (hkind : node.kind = .parser .argsAddBlock)
      (harguments : Present (IsList (IsOptional Conforms)) node.slots[0]?)
      (hblock : ∀ slot ∈ node.slots[1]?, IsOptional Conforms slot) : Conforms node
  | operation {event : ParserEvent} {node : Node} (hevent : event ∈ [.binary, .call])
      (hkind : node.kind = .parser event)
      (hleft : Present (IsChild Conforms) node.slots[0]?)
      (hoperator : Present IsToken node.slots[1]?)
      (hright : Present (IsChild Conforms) node.slots[2]?) : Conforms node
  | classDef {node : Node} (hkind : node.kind = .parser .classDef)
      (hname : Present (IsChild Conforms) node.slots[0]?)
      (hparent : ∀ slot ∈ node.slots[1]?, IsOptional Conforms slot)
      (hbody : Present (IsChild Conforms) node.slots[2]?) : Conforms node
  | moduleDef {node : Node} (hkind : node.kind = .parser .moduleDef)
      (hname : Present (IsChild Conforms) node.slots[0]?)
      (hbody : Present (IsChild Conforms) node.slots[1]?) : Conforms node
  | methodDef {node : Node} (hkind : node.kind = .parser .methodDef)
      (hname : Present (IsChild Conforms) node.slots[0]?)
      (hparameters : Present (IsChild Conforms) node.slots[1]?)
      (hbody : Present (IsChild Conforms) node.slots[2]?) : Conforms node
  | reference {event : ParserEvent} {node : Node} (hevent : event ∈ [.varRef, .constRef])
      (hkind : node.kind = .parser event)
      (hname : Present (IsChild Conforms) node.slots[0]?) : Conforms node
  | statements {event : ParserEvent} {node : Node}
      (hevent : event ∈ [.program, .bodyStmt, .stringEmbexpr]) (hkind : node.kind = .parser event)
      (hlist : Present (IsList (IsOptional Conforms)) node.slots[0]?) : Conforms node
  | paren {node : Node} (hkind : node.kind = .parser .paren)
      (hslots : ∀ slot ∈ node.slots, IsParenthesized Conforms slot) : Conforms node
  | params {node : Node} (hkind : node.kind = .parser .params)
      (hrequired : ∀ slot ∈ node.slots[0]?, IsOptionalList (IsOptional Conforms) slot)
      (hoptional : ∀ slot ∈ node.slots[1]?, IsOptionalList (IsPair Conforms) slot)
      (hrest : ∀ slot ∈ node.slots[2]?, IsOptional Conforms slot)
      (hpost : ∀ slot ∈ node.slots[3]?, IsOptionalList (IsOptional Conforms) slot)
      (hkeywords : ∀ slot ∈ node.slots[4]?, IsOptionalList (IsKeyword Conforms) slot)
      (hkeywordRest : ∀ slot ∈ node.slots[5]?, IsOptional Conforms slot)
      (hblock : ∀ slot ∈ node.slots[6]?, IsOptional Conforms slot) : Conforms node
  | prefixed {event : ParserEvent} {node : Node}
      (hevent : event ∈ [.restParam, .kwRestParam, .blockArg]) (hkind : node.kind = .parser event)
      (hname : ∀ slot ∈ node.slots[0]?, IsOptional Conforms slot) : Conforms node

/-! ## Slot paths -/

namespace Node

/-- A node has what a rule asks for, and the children at the slot paths that the rule reads
are good. -/
structure Secures (good : Node → Prop) (node : Node) (paths : List (List Nat)) (fits : Bool) :
    Prop where
  fits : fits = true
  good : ∀ path ∈ paths, ∀ child, node.childAt path = .ok child → good child

variable {good : Node → Prop} {node : Node}

namespace Secures

theorem append
    {paths paths' : List (List Nat)} {fits fits' : Bool} (hpaths : Secures good node paths fits)
    (hpaths' : Secures good node paths' fits') :
    Secures good node (paths ++ paths') (fits && fits') where
  fits := by rw [hpaths.fits, hpaths'.fits, Bool.and_self]
  good := by
    intro path hpath child hchild
    rcases List.mem_append.1 hpath with hpath | hpath
    · exact hpaths.good path hpath child hchild
    · exact hpaths'.good path hpath child hchild

/-- Groups of slot paths that are numbered. -/
theorem flatMap
    {indices : List Nat} {paths : Nat → List (List Nat)} {fits : Nat → Bool}
    (hindices : ∀ index ∈ indices, Secures good node (paths index) (fits index)) :
    Secures good node (indices.flatMap paths) (indices.all fits) where
  fits := List.all_eq_true.2 fun index hindex => (hindices index hindex).fits
  good := by
    intro path hpath child hchild
    obtain ⟨index, hindex, hpath⟩ := List.mem_flatMap.1 hpath
    exact (hindices index hindex).good path hpath child hchild

/-- A child that is there. -/
theorem child {path : List Nat} {child : Node} (hslot : node.slotAt path = .ok (.node child))
    (hgood : good child) : Secures good node [path] (node.holdsChild path) where
  fits := by
    rw [holdsChild, childAt_eq_ok_iff.2 hslot]
    rfl
  good := by
    intro path' hpath found hfound
    rw [List.mem_singleton.1 hpath, childAt_eq_ok_iff, hslot] at hfound
    cases hfound
    exact hgood

/-- A child that may be left out. -/
theorem child?
    {path : List Nat} (hslot : ∀ slot, node.slotAt path = .ok slot → slot.IsOptional good) :
    Secures good node (node.pathIfPresent path) (node.mayHoldChild path) := by
  unfold pathIfPresent mayHoldChild
  cases hhas : node.has path with
  | false => exact ⟨rfl, by simp⟩
  | true =>
      cases hfound : node.slotAt path with
      | error fault => simp [has, hfound] at hhas
      | ok slot =>
          cases hslot slot hfound with
          | absent => simp [has, hfound] at hhas
          | node hgood => exact child hfound hgood

/-- The children in a list. -/
theorem children
    {path : List Nat} {items : List Slot} (hslot : node.slotAt path = .ok (.list items))
    (hitems : ∀ item ∈ items, item.IsOptional good) :
    Secures good node (node.childPaths path) (node.holdsChildren path) where
  fits := by
    rw [holdsChildren_of_list hslot]
    refine List.all_eq_true.2 fun item hitem => ?_
    cases hitems item hitem <;> rfl
  good := by
    intro path' hpath found hfound
    obtain ⟨items', offset, child, hlist, rfl, hchild⟩ := exists_of_mem_childPaths hpath
    rw [listAt_eq_ok_iff, hslot] at hlist
    cases hlist
    rw [childAt_eq_ok_iff, slotAt_concat_eq_ok_iff] at hfound
    obtain ⟨items', hlist, hitem⟩ := hfound
    rw [hslot] at hlist
    cases hlist
    cases hitems _ (List.mem_of_getElem? hitem) with
    | node hgood => exact hgood

/-- The children in a list that may be left out. -/
theorem children?
    {path : List Nat}
    (hslot : ∀ slot, node.slotAt path = .ok slot → slot.IsOptionalList (Slot.IsOptional good)) :
    Secures good node (node.childPaths path) (node.mayHoldChildren path) := by
  unfold mayHoldChildren
  cases hhas : node.has path with
  | false =>
      rw [childPaths_of_not_has hhas]
      exact ⟨rfl, by simp⟩
  | true =>
      cases hfound : node.slotAt path with
      | error fault => simp [has, hfound] at hhas
      | ok slot =>
          cases hslot slot hfound with
          | absent => simp [has, hfound] at hhas
          | list hitems => exact children hfound hitems

/-- All slots of a node that may be children. -/
theorem body
    (kind : Kind) {slots : List Slot} (hslots : ∀ slot ∈ slots, slot.IsOptional good) :
    Secures good (.branch kind slots) ((branch kind slots).childPaths [])
      ((branch kind slots).holdsChildren []) :=
  children rfl hslots

/-- A token. -/
theorem token {slot : Nat} (hslot : Slot.Present Slot.IsToken node.slots[slot]?) :
    Secures good node [] (node.holdsToken [slot]) where
  fits := by
    obtain ⟨found, hfound, htoken⟩ := hslot.exists_slot
    rw [holdsToken, tokenAt, slotAt_singleton_eq_ok_iff.2 hfound]
    cases htoken <;> rfl
  good := by simp

theorem childIn {slot : Nat} (hslot : Slot.Present (Slot.IsChild good) node.slots[slot]?) :
    Secures good node [[slot]] (node.holdsChild [slot]) := by
  obtain ⟨found, hfound, ⟨hgood⟩⟩ := hslot.exists_slot
  exact child (slotAt_singleton_eq_ok_iff.2 hfound) hgood

theorem childIn? {slot : Nat} (hslot : ∀ found ∈ node.slots[slot]?, found.IsOptional good) :
    Secures good node (node.pathIfPresent [slot]) (node.mayHoldChild [slot]) :=
  child? fun found hfound => hslot found (slotAt_singleton_eq_ok_iff.1 hfound)

theorem childrenIn
    {slot : Nat} (hslot : Slot.Present (Slot.IsList (Slot.IsOptional good)) node.slots[slot]?) :
    Secures good node (node.childPaths [slot]) (node.holdsChildren [slot]) := by
  obtain ⟨found, hfound, ⟨hitems⟩⟩ := hslot.exists_slot
  exact children (slotAt_singleton_eq_ok_iff.2 hfound) hitems

theorem childrenIn?
    {slot : Nat}
    (hslot : ∀ found ∈ node.slots[slot]?, found.IsOptionalList (Slot.IsOptional good)) :
    Secures good node (node.childPaths [slot]) (node.mayHoldChildren [slot]) :=
  children? fun found hfound => hslot found (slotAt_singleton_eq_ok_iff.1 hfound)

/-- Entries are found at the indices up to the length of their list. -/
theorem exists_entry
    {entry : Slot → Prop} {slot index : Nat}
    (hslot : ∀ found ∈ node.slots[slot]?, found.IsOptionalList entry)
    (hindex : index ∈ List.range' 0 (node.listLength [slot])) :
    ∃ item, entry item ∧ node.slotAt [slot, index] = .ok item := by
  rw [List.mem_range'_1, Nat.zero_add] at hindex
  unfold listLength at hindex
  cases hfound : node.slotAt [slot] with
  | error fault => simp [hfound] at hindex
  | ok found =>
      cases hslot found (slotAt_singleton_eq_ok_iff.1 hfound) with
      | absent => simp [hfound] at hindex
      | @list items hitems =>
          have hlt : index < items.length := by simpa [hfound] using hindex.2
          have hitem : items[index]? = some items[index] := List.getElem?_eq_getElem hlt
          have hpath : node.slotAt ([slot] ++ [index]) = .ok items[index] :=
            slotAt_concat_eq_ok_iff.2 ⟨items, hfound, hitem⟩
          exact ⟨items[index], hitems _ (List.getElem_mem hlt), hpath⟩

theorem optionalParams
    (hslot : ∀ found ∈ node.slots[1]?, found.IsOptionalList (Slot.IsPair good)) :
    Secures good node (optionalParamPaths (node.listLength [1]) 0)
      (node.fitsOptionalParams (node.listLength [1]) 0) := by
  refine flatMap fun index hindex => ?_
  obtain ⟨item, ⟨hname, hdefault⟩, hitem⟩ := exists_entry hslot hindex
  have hfirst := (@slotAt_concat_eq_ok_iff node [1, index] 0 _).2 ⟨_, hitem, rfl⟩
  have hsecond := (@slotAt_concat_eq_ok_iff node [1, index] 1 _).2 ⟨_, hitem, rfl⟩
  exact (child hfirst hname).append (child hsecond hdefault)

theorem keywordParams
    (hslot : ∀ found ∈ node.slots[4]?, found.IsOptionalList (Slot.IsKeyword good)) :
    Secures good node (node.keywordParamPaths (node.listLength [4]) 0)
      (node.fitsKeywordParams (node.listLength [4]) 0) := by
  refine flatMap fun index hindex => ?_
  obtain ⟨item, ⟨hlabel, hdefault⟩, hitem⟩ := exists_entry hslot hindex
  have hfirst := (@slotAt_concat_eq_ok_iff node [4, index] 0 _).2 ⟨_, hitem, rfl⟩
  refine (child hfirst hlabel).append (child? fun slot hslot => ?_)
  obtain ⟨items, hlist, hsecond⟩ := (@slotAt_concat_eq_ok_iff node [4, index] 1 _).1 hslot
  rw [hitem] at hlist
  cases hlist
  exact hdefault slot hsecond

/-- All groups of a parameter list. -/
theorem parameters
    (hrequired : ∀ found ∈ node.slots[0]?, found.IsOptionalList (Slot.IsOptional good))
    (hoptional : ∀ found ∈ node.slots[1]?, found.IsOptionalList (Slot.IsPair good))
    (hrest : ∀ found ∈ node.slots[2]?, found.IsOptional good)
    (hpost : ∀ found ∈ node.slots[3]?, found.IsOptionalList (Slot.IsOptional good))
    (hkeywords : ∀ found ∈ node.slots[4]?, found.IsOptionalList (Slot.IsKeyword good))
    (hkeywordRest : ∀ found ∈ node.slots[5]?, found.IsOptional good)
    (hblock : ∀ found ∈ node.slots[6]?, found.IsOptional good) :
    Secures good node (node.readPathsAs .params) (node.fitsAs .params) := by
  have hnames := (childIn? hkeywordRest).append (childIn? hblock)
  have hafter := (childIn? hrest).append <|
    (childrenIn? hpost).append ((keywordParams hkeywords).append hnames)
  exact (childrenIn? hrequired).append ((optionalParams hoptional).append hafter)

/-- Slots between parentheses, counted from an index. -/
theorem slotsFrom
    {index : Nat} {slots : List Slot} (hdrop : node.slots.drop index = slots)
    (hslots : ∀ slot ∈ slots, slot.IsParenthesized good) :
    Secures good node (slotPathsFrom index slots) (slots.all Slot.isPart) := by
  induction slots generalizing index with
  | nil => exact ⟨rfl, by simp [slotPathsFrom]⟩
  | cons slot slots ih =>
      obtain ⟨hfound, hnext⟩ := slotAt_of_drop_eq_cons hdrop
      have hrest := ih hnext fun slot hslot => hslots slot (List.mem_cons_of_mem _ hslot)
      cases hslots slot List.mem_cons_self with
      | absent => exact hrest
      | token content => exact hrest
      | node hgood =>
          have hfirst := child hfound hgood
          exact ⟨hrest.fits, (hfirst.append hrest).good⟩
      | @list items hitems =>
          have hfirst := children hfound hitems
          rw [childPaths_of_list hfound, holdsChildren_of_list hfound] at hfirst
          exact hfirst.append hrest

end Secures

/-! ## Conforming nodes -/

namespace Conforms

theorem secures
    {event : ParserEvent} (hnode : node.Conforms) (hkind : node.kind = .parser event) :
    Secures Conforms node (node.readPathsAs event) (node.fitsAs event) := by
  have hsame : ∀ {event' : ParserEvent}, node.kind = .parser event' → event' = event := by
    intro event' hkind'
    exact Kind.parser.inj (hkind'.symm.trans hkind)
  cases hnode with
  | scanner event' content => cases hkind
  | unknown hunknown =>
      rw [hkind] at hunknown
      cases hunknown
  | voidStmt hkind' =>
      cases hsame hkind'
      exact ⟨rfl, by simp [readPathsAs]⟩
  | sequence hevent hslots =>
      cases hkind
      have hbody := Secures.body (.parser event) hslots
      simp only [List.mem_cons, List.not_mem_nil, or_false] at hevent
      rcases hevent with rfl | rfl | rfl | rfl | rfl | rfl | rfl | rfl | rfl
      all_goals exact hbody
  | argsAddBlock hkind' harguments hblock =>
      cases hsame hkind'
      exact (Secures.childrenIn harguments).append (.childIn? hblock)
  | operation hevent hkind' hleft hoperator hright =>
      cases hsame hkind'
      have hoperands := (Secures.token hoperator).append
        ((Secures.childIn hleft).append (.childIn hright))
      simp only [List.mem_cons, List.not_mem_nil, or_false] at hevent
      rcases hevent with rfl | rfl
      all_goals exact hoperands
  | classDef hkind' hname hparent hbody =>
      cases hsame hkind'
      exact (Secures.childIn hname).append ((Secures.childIn? hparent).append (.childIn hbody))
  | moduleDef hkind' hname hbody =>
      cases hsame hkind'
      exact (Secures.childIn hname).append (.childIn hbody)
  | methodDef hkind' hname hparameters hbody =>
      cases hsame hkind'
      exact (Secures.childIn hname).append ((Secures.childIn hparameters).append (.childIn hbody))
  | reference hevent hkind' hname =>
      cases hsame hkind'
      have hchild := Secures.childIn hname
      simp only [List.mem_cons, List.not_mem_nil, or_false] at hevent
      rcases hevent with rfl | rfl
      all_goals exact hchild
  | statements hevent hkind' hlist =>
      cases hsame hkind'
      have hchildren := Secures.childrenIn hlist
      simp only [List.mem_cons, List.not_mem_nil, or_false] at hevent
      rcases hevent with rfl | rfl | rfl
      all_goals exact hchildren
  | paren hkind' hslots =>
      cases hsame hkind'
      exact Secures.slotsFrom rfl hslots
  | params hkind' hrequired hoptional hrest hpost hkeywords hkeywordRest hblock =>
      cases hsame hkind'
      exact .parameters hrequired hoptional hrest hpost hkeywords hkeywordRest hblock
  | prefixed hevent hkind' hname =>
      cases hsame hkind'
      have hchild := Secures.childIn? hname
      simp only [List.mem_cons, List.not_mem_nil, or_false] at hevent
      rcases hevent with rfl | rfl | rfl
      all_goals exact hchild

theorem fits (hnode : node.Conforms) : node.fits = true := by
  unfold Node.fits
  split
  · next event hkind =>
      cases hnode with
      | scanner event content => rfl
      | _ => simp_all [Kind.isKnown]
  · next event hkind => exact (hnode.secures hkind).fits
  · rfl

theorem child
    {path : List Nat} {child : Node} (hnode : node.Conforms) (hpath : path ∈ node.readPaths)
    (hchild : node.childAt path = .ok child) : child.Conforms := by
  unfold readPaths at hpath
  split at hpath
  · next event hkind => exact (hnode.secures hkind).good path hpath child hchild
  · cases hpath
  · cases hpath

theorem of_reads
    {root : Node} {position : Position} (hroot : root.Conforms) (hreads : root.Reads position)
    (hnode : root.nodeAt? position = some node) : node.Conforms := by
  induction hreads with
  | here root =>
      cases hnode
      exact hroot
  | inside hpath hchild _ ih =>
      rw [nodeAt?_cons hchild] at hnode
      exact ih (hroot.child hpath hchild) hnode

end Conforms

end Node

/-- A conforming node prints, wherever it stands. -/
theorem Cursor.print_of_conforms {cursor : Cursor} (hnode : cursor.node.Conforms) :
    ∃ doc, cursor.print.result = .ok doc := by
  have halone : cursor.node.print.result.isOk = true := by
    rw [Node.print_isOk_iff]
    intro position node hreads hfound
    exact (hnode.of_reads hreads hfound).fits
  have hhere : ((Print.within cursor.node.height).run (cursor, #[])).1 = cursor.print.result := rfl
  rw [← Print.within_isOk (Nat.le_refl _) #[], hhere] at halone
  cases hprint : cursor.print.result with
  | ok doc => exact ⟨doc, rfl⟩
  | error fault =>
      rw [hprint] at halone
      cases halone

open Slot Node.Conforms in
/-- A method with a required, an optional and two keyword parameters between parentheses, and
an expression that has a node of unknown kind for an operand. -/
theorem Cursor.print_of_conforms_method :
    let name : Node := .leaf (.scanner .ident) "a"
    let label : Node := .leaf (.scanner .label) "key:"
    let parameters : Node := .branch (.parser .params) [
      .list [.node name],
      .list [.list [.node name, .node name]],
      .absent,
      .absent,
      .list [.list [.node label], .list [.node label, .node name]]]
    let sum : Node := .branch (.parser .binary) [
      .node name, .token "+", .node (.branch (.other "begin") [])]
    let body : Node := .branch (.parser .bodyStmt) [.list [.node sum]]
    let method : Node := .branch (.parser .methodDef) [
      .node name, .node (.branch (.parser .paren) [.node parameters]), .node body]
    let root : Node := .branch (.parser .program) [.list [.node method]]
    root.Conforms ∧ ∃ doc, (Cursor.ofRoot root).print.result = .ok doc := by
  intro name label parameters sum body method root
  have hname : name.Conforms := .scanner .ident "a"
  have hlabel : label.Conforms := .scanner .label "key:"
  have hparameters : parameters.Conforms := by
    refine .params rfl ?_ ?_ ?_ ?_ ?_ ?_ ?_ <;> rintro slot ⟨⟩
    · exact .list (by simpa using .node hname)
    · exact .list (by simpa using .list hname hname)
    · exact .absent
    · exact .absent
    · refine .list (List.forall_mem_cons.2 ⟨.list hlabel (by simp), ?_⟩)
      simpa using .list hlabel (by simpa using .node hname)
  have hsum : sum.Conforms :=
    .operation (by simp) rfl (.some (.node hname)) (.some (.token "+"))
      (.some (.node (.unknown rfl)))
  have hbody : body.Conforms :=
    .statements (by simp) rfl (.some (.list (by simpa using .node hsum)))
  have hparen : (Node.branch (.parser .paren) [.node parameters]).Conforms :=
    .paren rfl (by simpa using .node hparameters)
  have hmethod : method.Conforms :=
    .methodDef rfl (.some (.node hname)) (.some (.node hparen)) (.some (.node hbody))
  have hroot : root.Conforms :=
    .statements (by simp) rfl (.some (.list (by simpa using .node hmethod)))
  exact ⟨hroot, Cursor.print_of_conforms hroot⟩

end TreeFormat
