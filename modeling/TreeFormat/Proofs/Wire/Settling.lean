import TreeFormat.Proofs.Wire.RoundTrip

/-!
# Trees after one trip over the wire

A list that is written like a node in its array form comes back as that node, and so does
every such list inside of it.  `Node.settle` is the tree that comes back.  Settling changes
nothing but these lists (`Node.settle_eq_self_iff`), and a settled tree has none left
(`Node.settle_settle`), so one trip over the wire is enough.
-/

namespace TreeFormat

open Json (Value)

mutual

/-- The tree that the text of a tree stands for. -/
def Node.settle : Node → Node
  | .leaf kind text => .leaf kind text
  | .branch kind slots => .branch kind (Slot.settleAll slots)

/-- The slot that the wire form of a slot stands for. -/
def Slot.settle : Slot → Slot
  | .absent => .absent
  | .token text => .token text
  | .node child => .node child.settle
  | .list [.token name, .token text] => .node (.leaf (Kind.ofName name) text)
  | .list [.token name, .list items] =>
    .node (.branch (Kind.ofName name) (Slot.settleAll items))
  | .list items => .list (Slot.settleAll items)

/-- The slots that the wire forms of several slots stand for. -/
def Slot.settleAll : List Slot → List Slot
  | [] => []
  | slot :: slots => slot.settle :: Slot.settleAll slots

end

/-! ## Lists that stay lists -/

namespace Slot

theorem mimicsNode_eq_false_iff
    {items : List Slot} :
    mimicsNode items = false ↔
      (∀ name text, items ≠ [.token name, .token text]) ∧
        ∀ name inner, items ≠ [.token name, .list inner] := by
  constructor
  · intro hmimics
    constructor <;> rintro name second rfl <;> simp [mimicsNode] at hmimics
  · rintro ⟨htext, hinner⟩
    unfold mimicsNode
    split
    · exact absurd rfl (htext _ _)
    · exact absurd rfl (hinner _ _)
    · rfl

theorem settle_list
    {items : List Slot} (hmimics : mimicsNode items = false) :
    settle (.list items) = .list (settleAll items) := by
  obtain ⟨htext, hinner⟩ := mimicsNode_eq_false_iff.1 hmimics
  rw [settle]
  · exact htext
  · exact hinner

theorem settleAll_eq_map (slots : List Slot) : settleAll slots = slots.map settle := by
  induction slots with
  | nil => rfl
  | cons slot slots ih => rw [settleAll, ih, List.map_cons]

theorem settleAll_eq_pair
    {items : List Slot} {first second : Slot} (hitems : settleAll items = [first, second]) :
    ∃ slot slot', items = [slot, slot'] ∧ slot.settle = first ∧ slot'.settle = second := by
  rw [settleAll_eq_map, List.map_eq_cons_iff] at hitems
  obtain ⟨slot, rest, rfl, hfirst, hrest⟩ := hitems
  obtain ⟨slot', rfl, hsecond⟩ := List.map_eq_singleton_iff.1 hrest
  exact ⟨slot, slot', rfl, hfirst, hsecond⟩

theorem eq_token_of_settle
    {slot : Slot} {text : String} (hslot : slot.settle = .token text) : slot = .token text := by
  unfold settle at hslot
  split at hslot <;> simp_all

theorem exists_list_of_settle
    {slot : Slot} {items : List Slot} (hslot : slot.settle = .list items) :
    ∃ before, slot = .list before := by
  unfold settle at hslot
  split at hslot <;> simp_all

theorem mimicsNode_settleAll
    {items : List Slot} (hmimics : mimicsNode items = false) :
    mimicsNode (settleAll items) = false := by
  obtain ⟨htext, hinner⟩ := mimicsNode_eq_false_iff.1 hmimics
  rw [mimicsNode_eq_false_iff]
  constructor
  · intro name text hpair
    obtain ⟨slot, slot', rfl, hslot, hslot'⟩ := settleAll_eq_pair hpair
    rw [eq_token_of_settle hslot, eq_token_of_settle hslot'] at htext
    exact htext name text rfl
  · intro name inner hpair
    obtain ⟨slot, slot', rfl, hslot, hslot'⟩ := settleAll_eq_pair hpair
    obtain ⟨before, rfl⟩ := exists_list_of_settle hslot'
    rw [eq_token_of_settle hslot] at hinner
    exact hinner name before rfl

end Slot

/-! ## Decoding what was encoded -/

theorem Slot.ofValues?_toValues (slots : List Slot) :
    (∀ kind ∈ Slot.allKinds slots, kind.IsNamed) →
      Slot.ofValues? (Slot.toValues slots) = some (Slot.settleAll slots) := by
  -- along the settling, so that the two kinds of pairs are cases of their own
  refine Slot.settleAll.induct
    (fun node => (∀ kind ∈ node.kinds, kind.IsNamed) →
      Slot.ofValue? node.toValue = some (.node node.settle))
    (fun slots => (∀ kind ∈ Slot.allKinds slots, kind.IsNamed) →
      Slot.ofValues? (Slot.toValues slots) = some (Slot.settleAll slots))
    (fun slot => (∀ kind ∈ slot.kinds, kind.IsNamed) →
      Slot.ofValue? slot.toValue = some slot.settle)
    ?leaf ?branch ?absent ?token ?node ?literalPair ?slotsPair ?list ?nil ?cons slots
  case leaf =>
    intro kind text hkinds
    rw [Slot.ofValue?_toValue_leaf (hkinds kind (by simp [Node.kinds])), Node.settle]
  case branch =>
    intro kind slots ih hkinds
    rw [Node.kinds, List.forall_mem_cons] at hkinds
    rw [Slot.ofValue?_toValue_branch hkinds.1, ih hkinds.2, Node.settle]
    rfl
  case absent =>
    intro _
    rfl
  case token =>
    intro text _
    rfl
  case node =>
    intro child ih hkinds
    rw [Slot.toValue, Slot.settle]
    exact ih hkinds
  case literalPair =>
    intro name text _
    rfl
  case slotsPair =>
    intro name items ih hkinds
    have hitems := ih (by simpa [Slot.kinds, Slot.allKinds] using hkinds)
    simp [Slot.toValue, Slot.toValues, Slot.ofValue?, hitems, Slot.settle]
  case list =>
    intro items htext hinner ih hkinds
    have hmimics := Slot.mimicsNode_eq_false_iff.2 ⟨htext, hinner⟩
    rw [Slot.toValue, Slot.ofValue?_array hmimics, ih hkinds, Slot.settle_list hmimics]
    rfl
  case nil =>
    intro _
    rfl
  case cons =>
    intro slot slots ih ihs hkinds
    rw [Slot.allKinds, List.forall_mem_append] at hkinds
    rw [Slot.toValues, Slot.settleAll, Slot.ofValues?_cons_eq_some_iff]
    exact ⟨ih hkinds.1, ihs hkinds.2⟩

theorem Slot.settleAll_settleAll (slots : List Slot) :
    Slot.settleAll (Slot.settleAll slots) = Slot.settleAll slots := by
  refine Slot.settleAll.induct
    (fun node => node.settle.settle = node.settle)
    (fun slots => Slot.settleAll (Slot.settleAll slots) = Slot.settleAll slots)
    (fun slot => slot.settle.settle = slot.settle)
    ?leaf ?branch ?absent ?token ?node ?literalPair ?slotsPair ?list ?nil ?cons slots
  case leaf => exact fun _ _ => rfl
  case branch =>
    intro kind slots ih
    rw [Node.settle, Node.settle, ih]
  case absent => rfl
  case token => exact fun _ => rfl
  case node =>
    intro child ih
    rw [Slot.settle, Slot.settle, ih]
  case literalPair => exact fun _ _ => rfl
  case slotsPair =>
    intro name items ih
    rw [Slot.settle, Slot.settle, Node.settle, ih]
  case list =>
    intro items htext hinner ih
    have hmimics := Slot.mimicsNode_eq_false_iff.2 ⟨htext, hinner⟩
    rw [Slot.settle_list hmimics, Slot.settle_list (Slot.mimicsNode_settleAll hmimics), ih]
  case nil => rfl
  case cons =>
    intro slot slots ih ihs
    rw [Slot.settleAll, Slot.settleAll, ih, ihs]

namespace Node

theorem settle_settle (node : Node) : node.settle.settle = node.settle := by
  cases node with
  | leaf kind text => rfl
  | branch kind slots => rw [settle, settle, Slot.settleAll_settleAll]

/-- Settling leaves a tree as it is if no list in it is written like a node. -/
theorem settle_eq_self_iff
    {node : Node} (hkinds : ∀ kind ∈ node.kinds, kind.IsNamed) :
    node.settle = node ↔ ∀ items ∈ node.lists, Slot.mimicsNode items = false := by
  cases node with
  | leaf kind text => simp [settle, lists]
  | branch kind slots =>
      rw [kinds, List.forall_mem_cons] at hkinds
      rw [lists, ← Slot.ofValues?_toValues_iff hkinds.2, Slot.ofValues?_toValues slots hkinds.2,
        settle]
      simp

end Node

/-- The text of a tree loads to the settled tree. -/
theorem loadTree_toJson
    {node : Node} (hkinds : ∀ kind ∈ node.kinds, kind.IsNamed)
    (hnesting : node.toValue.nesting < RootReader.depthLimit) (path : String) :
    loadTree node.toJson path = .ok node.settle := by
  rw [loadTree_eq_ok_iff, Node.toJson, String.toList_ofList]
  cases node with
  | leaf kind text =>
      have hkind : kind.IsNamed := hkinds kind (by simp [Node.kinds])
      rw [Node.toValue, RootReader.readAll_render_eq_ok_iff (by simp [Value.NumberFree])]
      simp [Body.ofValue?, Body.toNode, Kind.ofName_name hkind, Value.nesting, Node.settle,
        RootReader.depthLimit]
  | branch kind slots =>
      rw [Node.kinds, List.forall_mem_cons] at hkinds
      have hfree : (Value.array (Slot.toValues slots)).NumberFree := by
        rw [Value.NumberFree]
        exact Slot.numberFree_toValues slots
      rw [Node.toValue, RootReader.readAll_render_eq_ok_iff hfree, Body.ofValue?,
        Slot.ofValues?_toValues slots hkinds.2, Kind.ofName_name hkinds.1]
      simp only [Node.toValue, Value.nesting, Value.nestingMembers] at hnesting ⊢
      refine ⟨by omega, ?_⟩
      simp [Body.toNode, Node.settle]

end TreeFormat
