import TreeFormat.Format
import TreeFormat.Proofs.Print.Acceptance
import TreeFormat.Proofs.Tree.Contents

/-!
# What a printed tree looks like

A rule stops where it does not find what it asks for, so a tree that prints tells how the
nodes that were read look: composite nodes have slots, and a parameter list has children
and lists of children where its rule reads them (`Node.shape_of_print`).

Some rules are content with less than that.  A sigil, a parameter list and parentheses take
a leaf for a node without slots, and optional and keyword parameters are looked for in a
list only.  Whatever else is there is passed over, without a fault and without a report
(`Node.print_passes_over`).
-/

namespace TreeFormat

/-- Composite kinds whose rules ask for no slot that has to be there.  A leaf does as well. -/
def ParserEvent.takesLeaf : ParserEvent → Bool
  | .blockArg | .kwRestParam | .paren | .params | .restParam | .voidStmt => true
  | _ => false

namespace Node

/-- A parameter list whose slots hold what its rule reads.  Optional and keyword parameters
are described for the case that they are in a list. -/
structure IsParameterList (good : Node → Prop) (node : Node) : Prop where
  required : ∀ slot ∈ node.slots[0]?, slot.IsOptionalList (Slot.IsOptional good)
  optional : ∀ items, node.slots[1]? = some (.list items) → ∀ item ∈ items, item.IsPair good
  rest : ∀ slot ∈ node.slots[2]?, slot.IsOptional good
  post : ∀ slot ∈ node.slots[3]?, slot.IsOptionalList (Slot.IsOptional good)
  keywords : ∀ items, node.slots[4]? = some (.list items) → ∀ item ∈ items, item.IsKeyword good
  keywordRest : ∀ slot ∈ node.slots[5]?, slot.IsOptional good
  block : ∀ slot ∈ node.slots[6]?, slot.IsOptional good

/-- A leaf of composite kind is turned down by all rules that ask for a slot. -/
theorem fitsAs_leaf (kind : Kind) (content : String) (event : ParserEvent) :
    (leaf kind content).fitsAs event = event.takesLeaf := by
  cases event <;> rfl

theorem literal?_eq_none_of_fitsAs
    {node : Node} {event : ParserEvent} (hfits : node.fitsAs event = true)
    (hevent : event.takesLeaf = false) : node.literal? = none := by
  cases node with
  | branch kind slots => rfl
  | leaf kind content =>
      rw [fitsAs_leaf, hevent] at hfits
      cases hfits

/-! ## Contents of the slots that are read -/

variable {node : Node} {path : List Nat}

theorem exists_child_of_holdsChild (hholds : node.holdsChild path = true) :
    ∃ child, node.slotAt path = .ok (.node child) := by
  unfold holdsChild at hholds
  cases hchild : node.childAt path with
  | ok child => exact ⟨child, childAt_eq_ok_iff.1 hchild⟩
  | error fault =>
      rw [hchild] at hholds
      cases hholds

theorem eq_absent_of_not_has
    (hmissing : (!node.has path) = true) {slot : Slot} (hslot : node.slotAt path = .ok slot) :
    slot = .absent := by
  unfold has at hmissing
  rw [hslot] at hmissing
  cases slot with
  | absent => rfl
  | _ => cases hmissing

theorem isOptional_of_mayHoldChild
    (hholds : node.mayHoldChild path = true) {slot : Slot} (hslot : node.slotAt path = .ok slot) :
    slot.IsOptional fun _ => True := by
  rw [mayHoldChild, Bool.or_eq_true] at hholds
  rcases hholds with hmissing | hholds
  · rw [eq_absent_of_not_has hmissing hslot]
    exact .absent
  · obtain ⟨child, hchild⟩ := exists_child_of_holdsChild hholds
    rw [hslot] at hchild
    cases hchild
    exact .node trivial

theorem isOptional_of_isOptionalChild {slot : Slot} (hslot : slot.isOptionalChild = true) :
    slot.IsOptional fun _ => True := by
  cases slot with
  | absent => exact .absent
  | node child => exact .node trivial
  | token content => cases hslot
  | list items => cases hslot

theorem isOptionalList_of_mayHoldChildren
    (hholds : node.mayHoldChildren path = true) {slot : Slot}
    (hslot : node.slotAt path = .ok slot) :
    slot.IsOptionalList (Slot.IsOptional fun _ => True) := by
  rw [mayHoldChildren, Bool.or_eq_true] at hholds
  rcases hholds with hmissing | hholds
  · rw [eq_absent_of_not_has hmissing hslot]
    exact .absent
  · unfold holdsChildren at hholds
    cases hlist : node.listAt path with
    | error fault =>
        rw [hlist] at hholds
        cases hholds
    | ok items =>
        rw [hlist] at hholds
        rw [listAt_eq_ok_iff, hslot] at hlist
        cases hlist
        refine .list fun item hitem => ?_
        exact isOptional_of_isOptionalChild (List.all_eq_true.1 hholds item hitem)

/-- A slot whose first element is a child is a list that starts with it. -/
theorem exists_entry_of_holdsChild
    {item : Slot} (hitem : node.slotAt path = .ok item)
    (hholds : node.holdsChild (path ++ [0]) = true) :
    ∃ child rest, item = .list (.node child :: rest) := by
  obtain ⟨child, hchild⟩ := exists_child_of_holdsChild hholds
  obtain ⟨entries, hentries, hfirst⟩ := slotAt_concat_eq_ok_iff.1 hchild
  rw [hitem] at hentries
  cases hentries
  cases entries with
  | nil => cases hfirst
  | cons slot rest =>
      cases hfirst
      exact ⟨child, rest, rfl⟩

/-- What holds at all indices up to the length of a list holds for all its elements. -/
theorem forall_mem_of_all_range
    {slot : Nat} {items : List Slot} {entry : Slot → Prop} {test : Nat → Bool}
    (hslot : node.slots[slot]? = some (.list items))
    (htest : ∀ index item, node.slotAt [slot, index] = .ok item → test index = true → entry item)
    (hall : (List.range' 0 (node.listLength [slot])).all test = true) :
    ∀ item ∈ items, entry item := by
  have hlist : node.slotAt [slot] = .ok (.list items) := slotAt_singleton_eq_ok_iff.2 hslot
  have hlength : node.listLength [slot] = items.length := by rw [listLength, hlist]
  intro item hitem
  obtain ⟨index, hindex⟩ := List.mem_iff_getElem?.1 hitem
  have hlt : index < items.length := (List.getElem?_eq_some_iff.1 hindex).1
  have hat : node.slotAt ([slot] ++ [index]) = .ok item :=
    slotAt_concat_eq_ok_iff.2 ⟨items, hlist, hindex⟩
  refine htest index item hat (List.all_eq_true.1 hall index ?_)
  rw [hlength, List.mem_range'_1]
  omega

theorem isPair_of_fitsOptionalParams
    {items : List Slot} (hslot : node.slots[1]? = some (.list items))
    (hfits : node.fitsOptionalParams (node.listLength [1]) 0 = true) :
    ∀ item ∈ items, item.IsPair fun _ => True := by
  refine forall_mem_of_all_range hslot (fun index item hitem htest => ?_) hfits
  rw [Bool.and_eq_true] at htest
  obtain ⟨hname, hdefault⟩ := htest
  obtain ⟨name, rest, rfl⟩ := exists_entry_of_holdsChild hitem hname
  obtain ⟨default, hchild⟩ := exists_child_of_holdsChild hdefault
  obtain ⟨entries, hentries, hsecond⟩ := (@slotAt_concat_eq_ok_iff node [1, index] 1 _).1 hchild
  rw [hitem] at hentries
  cases hentries
  cases rest with
  | nil => cases hsecond
  | cons slot rest =>
      cases hsecond
      exact .list trivial trivial

theorem isKeyword_of_fitsKeywordParams
    {items : List Slot} (hslot : node.slots[4]? = some (.list items))
    (hfits : node.fitsKeywordParams (node.listLength [4]) 0 = true) :
    ∀ item ∈ items, item.IsKeyword fun _ => True := by
  refine forall_mem_of_all_range hslot (fun index item hitem htest => ?_) hfits
  rw [Bool.and_eq_true] at htest
  obtain ⟨hlabel, hdefault⟩ := htest
  obtain ⟨label, rest, rfl⟩ := exists_entry_of_holdsChild hitem hlabel
  refine .list trivial fun slot hsecond => ?_
  have hat : node.slotAt ([4, index] ++ [1]) = .ok slot :=
    slotAt_concat_eq_ok_iff.2 ⟨_, hitem, hsecond⟩
  exact isOptional_of_mayHoldChild hdefault hat

theorem isParameterList_of_fitsAs (hfits : node.fitsAs .params = true) :
    node.IsParameterList fun _ => True := by
  simp only [fitsAs, Bool.and_eq_true] at hfits
  obtain ⟨hrequired, hoptional, hrest, hpost, hkeywords, hkeywordRest, hblock⟩ := hfits
  have hchild : ∀ {index : Nat}, node.mayHoldChild [index] = true →
      ∀ slot ∈ node.slots[index]?, slot.IsOptional fun _ => True := by
    intro index hholds slot hslot
    exact isOptional_of_mayHoldChild hholds (slotAt_singleton_eq_ok_iff.2 hslot)
  have hchildren : ∀ {index : Nat}, node.mayHoldChildren [index] = true →
      ∀ slot ∈ node.slots[index]?, slot.IsOptionalList (Slot.IsOptional fun _ => True) := by
    intro index hholds slot hslot
    exact isOptionalList_of_mayHoldChildren hholds (slotAt_singleton_eq_ok_iff.2 hslot)
  exact {
    required := hchildren hrequired
    optional := fun _ hslot => isPair_of_fitsOptionalParams hslot hoptional
    rest := hchild hrest
    post := hchildren hpost
    keywords := fun _ hslot => isKeyword_of_fitsKeywordParams hslot hkeywords
    keywordRest := hchild hkeywordRest
    block := hchild hblock }

/-! ## Trees that print -/

/-- A leaf says nothing to the rules that take one: it prints as a node without slots. -/
theorem print_leaf_of_takesLeaf
    {event : ParserEvent} (hevent : event.takesLeaf = true) (content : String) :
    (leaf (.parser event) content).print = (branch (.parser event) []).print := by
  cases event <;> first | rfl | cases hevent

/-- In a tree that prints, a composite node that was read has slots, unless its rule takes a
leaf as well.  The slots of a parameter list hold what its rule reads. -/
theorem shape_of_print
    {root node : Node} {doc : Doc} {position : Position} {event : ParserEvent}
    (hprint : root.print.result = .ok doc) (hreads : root.Reads position)
    (hnode : root.nodeAt? position = some node) (hkind : node.kind = .parser event) :
    (event.takesLeaf = false → node.literal? = none) ∧
      (event = .params → node.IsParameterList fun _ => True) := by
  have hok : root.print.result.isOk = true := by
    rw [hprint]
    rfl
  have hfits : node.fits = true := (print_isOk_iff root).1 hok position node hreads hnode
  rw [fits, hkind] at hfits
  refine ⟨literal?_eq_none_of_fitsAs hfits, ?_⟩
  rintro rfl
  exact isParameterList_of_fitsAs hfits

/-- The parameters of a method, with a required, an optional and a keyword parameter. -/
theorem shape_of_print_method :
    let name : Node := .leaf (.scanner .ident) "a"
    let parameters : Node := .branch (.parser .params) [
      .list [.node name],
      .list [.list [.node name, .node name]],
      .absent,
      .absent,
      .list [.list [.node (.leaf (.scanner .label) "key:")]]]
    let body : Node := .branch (.parser .bodyStmt) [.list []]
    let method : Node := .branch (.parser .methodDef) [.node name, .node parameters, .node body]
    let root : Node := .branch (.parser .program) [.list [.node method]]
    root.print.result.isOk = true ∧ root.Reads [[0, 0], [1]] ∧
      root.nodeAt? [[0, 0], [1]] = some parameters ∧
      parameters.IsParameterList fun _ => True := by
  intro name parameters body method root
  have hok : root.print.result.isOk = true := by decide +kernel
  have hreads : root.Reads [[0, 0], [1]] :=
    @Reads.inside root method [0, 0] [[1]] (by decide +kernel) rfl <|
      @Reads.inside method parameters [1] [] (by decide +kernel) rfl (.here parameters)
  cases hprint : root.print.result with
  | error fault =>
      rw [hprint] at hok
      cases hok
  | ok doc => exact ⟨rfl, hreads, rfl, (shape_of_print hprint hreads rfl rfl).2 rfl⟩

/-- A parameter in the place of the list of optional ones, and parentheses that are a leaf.
The tree prints without either of them, and nothing is reported. -/
theorem print_passes_over :
    let parameters : Node :=
      .branch (.parser .params) [.absent, .node (.leaf (.scanner .ident) "a")]
    let group : Node := .leaf (.parser .paren) "x"
    let body : Node := .branch (.parser .bodyStmt) [.list [.node group]]
    let method : Node := .branch (.parser .methodDef)
      [.node (.leaf (.scanner .ident) "foo"), .node parameters, .node body]
    let root : Node := .branch (.parser .program) [.list [.node method]]
    (root.format {}).result.toOption = some "def foo\n  ()\nend\n" ∧
      root.print.log.skipped = [] ∧
      (root.Reads [[0, 0], [1]] ∧ root.nodeAt? [[0, 0], [1]] = some parameters ∧
        ¬ ∀ slot ∈ parameters.slots[1]?, slot.IsOptionalList fun _ => True) ∧
      (root.Reads [[0, 0], [2], [0, 0]] ∧ root.nodeAt? [[0, 0], [2], [0, 0]] = some group ∧
        group.literal? = some "x") := by
  intro parameters group body method root
  have hmethod : ∀ {rest : Position}, method.Reads rest → root.Reads ([0, 0] :: rest) :=
    fun hrest => @Reads.inside root method [0, 0] _ (by decide +kernel) rfl hrest
  have hparameters : method.Reads [[1]] :=
    @Reads.inside method parameters [1] [] (by decide +kernel) rfl (.here parameters)
  have hgroup : method.Reads [[2], [0, 0]] :=
    @Reads.inside method body [2] [[0, 0]] (by decide +kernel) rfl <|
      @Reads.inside body group [0, 0] [] (by decide +kernel) rfl (.here group)
  have hshape : ¬ ∀ slot ∈ parameters.slots[1]?, slot.IsOptionalList fun _ => True := by
    intro hall
    cases hall _ rfl
  refine ⟨by decide +kernel, by decide +kernel, ⟨hmethod hparameters, rfl, hshape⟩, ?_⟩
  exact ⟨hmethod hgroup, rfl, rfl⟩

end Node

end TreeFormat
