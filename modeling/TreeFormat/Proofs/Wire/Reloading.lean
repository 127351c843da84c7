import TreeFormat.Proofs.Wire.Loading
import TreeFormat.Proofs.Wire.Settling

/-!
# Loaded trees, written and loaded again

Decoding has more than one way to the same slot, and encoding takes only one of them.  All
of it comes back as it was, but for one thing: `true` is read as a token and written as a
string, and an array of two elements with a string in front may be a node.  So the text of
a loaded tree always loads, to the settled tree, and a list that settles into a node is one
in which a `true` was read (`loadTree_toJson_of_loadTree`).
-/

namespace TreeFormat

open Json (Value)

/-! ## What decoding gives -/

/-- What is known of the kinds, the lists and the nesting of something that was decoded
from a value. -/
structure DecodedParts
    (depth : Nat) (kinds : List Kind) (lists : List (List Slot)) (nesting : Nat) : Prop where
  named : ∀ kind ∈ kinds, kind.IsNamed
  /-- A list that looks like a node was not read as one, because of a `true` in it. -/
  flagged : ∀ items ∈ lists, Slot.mimicsNode items = true → .token "true" ∈ items
  nesting_le : nesting ≤ depth

/-- What is known of a node that was decoded from a value of a depth. -/
def Node.Decoded (depth : Nat) (node : Node) : Prop :=
  DecodedParts depth node.kinds node.lists node.toValue.nesting

/-- What is known of a slot that was decoded from a value of a depth. -/
def Slot.Decoded (depth : Nat) (slot : Slot) : Prop :=
  DecodedParts depth slot.kinds slot.lists slot.toValue.nesting

/-- What is known of slots that were decoded from values of a depth. -/
def Slot.AllDecoded (depth : Nat) (slots : List Slot) : Prop :=
  DecodedParts depth (allKinds slots) (allLists slots) (Value.nestingAll (toValues slots))

theorem DecodedParts.mono
    {depth deeper nesting : Nat} {kinds : List Kind} {lists : List (List Slot)}
    (hparts : DecodedParts depth kinds lists nesting) (hdepth : depth ≤ deeper) :
    DecodedParts deeper kinds lists nesting :=
  ⟨hparts.named, hparts.flagged, Nat.le_trans hparts.nesting_le hdepth⟩

namespace Slot

theorem decoded_absent (depth : Nat) : Slot.Decoded depth .absent :=
  ⟨by simp [kinds], by simp [lists], by simp [toValue, Value.nesting]⟩

theorem decoded_token (depth : Nat) (text : String) : Slot.Decoded depth (.token text) :=
  ⟨by simp [kinds], by simp [lists], by simp [toValue, Value.nesting]⟩

theorem decoded_node
    {depth : Nat} {child : Node} (hchild : child.Decoded depth) :
    Slot.Decoded depth (.node child) := by
  rw [Slot.Decoded, kinds, lists, toValue]
  exact hchild

theorem decoded_list
    {depth : Nat} {items : List Slot} (hitems : AllDecoded depth items)
    (hflagged : mimicsNode items = true → .token "true" ∈ items) :
    Slot.Decoded (depth + 1) (.list items) where
  named := by simpa [kinds] using hitems.named
  flagged := by
    rw [lists, List.forall_mem_cons]
    exact ⟨hflagged, hitems.flagged⟩
  nesting_le := by simpa [toValue, Value.nesting] using hitems.nesting_le

theorem allDecoded_nil (depth : Nat) : AllDecoded depth [] :=
  ⟨by simp [allKinds], by simp [allLists], by simp [toValues, Value.nestingAll]⟩

theorem allDecoded_cons
    {depth : Nat} {slot : Slot} {slots : List Slot} (hslot : slot.Decoded depth)
    (hslots : AllDecoded depth slots) : AllDecoded depth (slot :: slots) where
  named := by
    rw [allKinds, List.forall_mem_append]
    exact ⟨hslot.named, hslots.named⟩
  flagged := by
    rw [allLists, List.forall_mem_append]
    exact ⟨hslot.flagged, hslots.flagged⟩
  nesting_le := by
    rw [toValues, Value.nestingAll]
    exact Nat.max_le.2 ⟨hslot.nesting_le, hslots.nesting_le⟩

end Slot

namespace Node

variable {kind : Kind}

theorem decoded_leaf (hkind : kind.IsNamed) (text : String) (depth : Nat) :
    Node.Decoded (depth + 1) (.leaf kind text) where
  named := by simpa [kinds] using hkind
  flagged := by simp [lists]
  nesting_le := by simp [toValue, Value.nesting, Value.nestingMembers]

theorem decoded_branch
    {depth : Nat} {slots : List Slot} (hkind : kind.IsNamed)
    (hslots : Slot.AllDecoded depth slots) : Node.Decoded (depth + 2) (.branch kind slots) where
  named := by
    rw [kinds, List.forall_mem_cons]
    exact ⟨hkind, hslots.named⟩
  flagged := by simpa [lists] using hslots.flagged
  nesting_le := by simpa [toValue, Value.nesting, Value.nestingMembers] using hslots.nesting_le

end Node

/-! ## Lists that were decoded -/

theorem isNamed_of_typeOf?
    {members : List (String × Value)} {kind : Kind} (hkind : typeOf? members = some kind) :
    kind.IsNamed := by
  unfold typeOf? at hkind
  split at hkind
  · rename_i name _
    exact ⟨name, Option.some.inj hkind⟩
  · cases hkind

namespace Slot

theorem eq_string_or_true_of_token
    {value : Value} {text : String} (hslot : ofValue? value = some (.token text)) :
    value = .string text ∨ value = .bool true ∧ text = "true" := by
  revert hslot
  -- of all the ways to a slot, a string and `true` are the ones to a token
  fun_cases ofValue? value <;> simp_all

theorem exists_array_of_list
    {value : Value} {items : List Slot} (hslot : ofValue? value = some (.list items)) :
    ∃ values, value = .array values := by
  revert hslot
  fun_cases ofValue? value <;> simp_all

theorem forall₂_of_ofValues?
    {values : List Value} {slots : List Slot} (hslots : ofValues? values = some slots) :
    List.Forall₂ (fun value slot => ofValue? value = some slot) values slots := by
  induction values generalizing slots with
  | nil =>
      cases hslots
      exact .nil
  | cons value values ih =>
      rw [ofValues?, Option.bind_eq_bind, Option.bind_eq_some_iff] at hslots
      obtain ⟨slot, hslot, hslots⟩ := hslots
      obtain ⟨rest, hrest, hslots⟩ := Option.bind_eq_some_iff.1 hslots
      cases hslots
      exact .cons hslot (ih hrest)

theorem ofValues?_eq_pair
    {values : List Value} {first second : Slot}
    (hvalues : ofValues? values = some [first, second]) :
    ∃ value value', values = [value, value'] ∧ ofValue? value = some first ∧
      ofValue? value' = some second := by
  obtain _ | ⟨hfirst, _ | ⟨hsecond, _ | _⟩⟩ := forall₂_of_ofValues? hvalues
  exact ⟨_, _, rfl, hfirst, hsecond⟩

/-- A list that looks like a node, but was not read as one, was read from an array with a
`true` in it. -/
theorem true_mem_of_mimicsNode
    {values : List Value} {items : List Slot}
    (htext : ∀ name text, values ≠ [.string name, .string text])
    (hinner : ∀ name inner, values ≠ [.string name, .array inner])
    (hitems : ofValues? values = some items) (hmimics : mimicsNode items = true) :
    .token "true" ∈ items := by
  unfold mimicsNode at hmimics
  split at hmimics
  · rename_i name text
    obtain ⟨value, value', rfl, hvalue, hvalue'⟩ := ofValues?_eq_pair hitems
    rcases eq_string_or_true_of_token hvalue with rfl | ⟨-, rfl⟩
    · rcases eq_string_or_true_of_token hvalue' with rfl | ⟨-, rfl⟩
      · exact absurd rfl (htext name text)
      · simp
    · simp
  · rename_i name inner
    obtain ⟨value, value', rfl, hvalue, hvalue'⟩ := ofValues?_eq_pair hitems
    rcases eq_string_or_true_of_token hvalue with rfl | ⟨-, rfl⟩
    · obtain ⟨values, rfl⟩ := exists_array_of_list hvalue'
      exact absurd rfl (hinner name values)
    · simp
  · contradiction

end Slot

/-! ## Decoding a body -/

/-- The node of a decoded body nests as deeply as an object around the value does. -/
theorem Body.decoded_of_ofValue? (value : Value) :
    ∀ kind body, kind.IsNamed → Body.ofValue? value = some body →
      Node.Decoded (value.nesting + 1) (body.toNode kind) := by
  -- along the decoder: for a slot, for the members of an object, for a body and for the
  -- elements of an array
  refine Body.ofValue?.induct
    (fun value => ∀ slot, Slot.ofValue? value = some slot → slot.Decoded value.nesting)
    (fun members => ∀ kind body, kind.IsNamed → some body ∈ Body.ofMembers members →
      Node.Decoded (Value.nestingMembers members + 1) (body.toNode kind))
    (fun value => ∀ kind body, kind.IsNamed → Body.ofValue? value = some body →
      Node.Decoded (value.nesting + 1) (body.toNode kind))
    (fun values => ∀ slots, Slot.ofValues? values = some slots →
      Slot.AllDecoded (Value.nestingAll values) slots)
    ?null ?false ?true ?number ?string ?literalPair ?slotsPair ?array ?object ?noObject
    ?literal ?slots ?noBody ?nil ?cons ?noMember ?bodyMember ?otherMember value
  case null =>
    rintro _ ⟨⟩
    exact Slot.decoded_absent _
  case false =>
    rintro _ ⟨⟩
    exact Slot.decoded_absent _
  case true =>
    rintro _ ⟨⟩
    exact Slot.decoded_token _ _
  case number =>
    rintro numeral _ ⟨⟩
  case string =>
    rintro text _ ⟨⟩
    exact Slot.decoded_token _ _
  case literalPair =>
    rintro name text _ ⟨⟩
    exact Slot.decoded_node (Node.decoded_leaf ⟨name, rfl⟩ text _)
  case slotsPair =>
    intro name items ih slot hslot
    rw [Slot.ofValue?, Option.map_eq_some_iff] at hslot
    obtain ⟨slots, hslots, rfl⟩ := hslot
    have hbranch := Node.decoded_branch ⟨name, rfl⟩ (ih slots hslots)
    exact Slot.decoded_node (hbranch.mono (by simp [Value.nesting, Value.nestingAll]))
  case array =>
    intro items htext hinner ih slot hslot
    have harray : Slot.ofValue? (.array items) = (Slot.ofValues? items).map .list := by
      rw [Slot.ofValue?]
      · exact htext
      · exact hinner
    rw [harray, Option.map_eq_some_iff] at hslot
    obtain ⟨slots, hslots, rfl⟩ := hslot
    exact Slot.decoded_list (ih slots hslots)
      (Slot.true_mem_of_mimicsNode htext hinner hslots)
  case object =>
    intro members kind body hbody hkind ih slot hslot
    rw [Slot.ofValue?, hkind, hbody] at hslot
    cases hslot
    exact Slot.decoded_node (ih kind body (isNamed_of_typeOf? hkind) (by rw [hbody]; simp))
  case noObject =>
    intro members hnone ih slot hslot
    rw [Slot.ofValue?] at hslot
    split at hslot
    · rename_i kind body hkind hbody
      exact (hnone kind body hkind hbody).elim
    · cases hslot
  case literal =>
    rintro text kind _ hkind ⟨⟩
    exact Node.decoded_leaf hkind text _
  case slots =>
    intro items ih kind body hkind hbody
    rw [Body.ofValue?, Option.map_eq_some_iff] at hbody
    obtain ⟨slots, hslots, rfl⟩ := hbody
    exact Node.decoded_branch hkind (ih slots hslots)
  case noBody =>
    intro value htext hitems kind body hkind hbody
    rw [Body.ofValue?] at hbody
    · cases hbody
    · exact htext
    · exact hitems
  case nil =>
    rintro _ ⟨⟩
    exact Slot.allDecoded_nil _
  case cons =>
    intro value values ih ihs slots hslots
    obtain _ | ⟨-, -⟩ := Slot.forall₂_of_ofValues? hslots
    obtain ⟨hslot, hrest⟩ := Slot.ofValues?_cons_eq_some_iff.1 hslots
    exact Slot.allDecoded_cons ((ih _ hslot).mono (Nat.le_max_left _ _))
      ((ihs _ hrest).mono (Nat.le_max_right _ _))
  case noMember =>
    intro kind body hkind hbody
    cases hbody
  case bodyMember =>
    intro value members ih ihs kind body hkind hbody
    rw [Body.ofMembers, if_pos rfl, List.mem_cons] at hbody
    rw [Value.nestingMembers]
    rcases hbody with hbody | hbody
    · exact (ih kind body hkind hbody.symm).mono
        (Nat.add_le_add_right (Nat.le_max_left _ _) 1)
    · exact (ihs kind body hkind hbody).mono
        (Nat.add_le_add_right (Nat.le_max_right _ _) 1)
  case otherMember =>
    intro key value members hkey ihs kind body hkind hbody
    rw [Body.ofMembers, if_neg hkey] at hbody
    rw [Value.nestingMembers]
    exact (ihs kind body hkind hbody).mono (Nat.add_le_add_right (Nat.le_max_right _ _) 1)

/-! ## Loading again -/

theorem decoded_of_loadTree
    {text path : String} {node : Node} (hload : loadTree text path = .ok node) :
    Node.Decoded (RootReader.depthLimit - 1) node := by
  obtain ⟨kind, body, hkind, ⟨value, hnesting, hbody⟩, rfl⟩ := isRead_of_loadTree hload
  exact (Body.decoded_of_ofValue? value kind body hkind hbody).mono hnesting

theorem settles_of_loadTree
    {text path : String} {node : Node} (hload : loadTree text path = .ok node) :
    loadTree node.toJson path = .ok node.settle := by
  have hdecoded := decoded_of_loadTree hload
  have hnesting : node.toValue.nesting < RootReader.depthLimit :=
    Nat.lt_of_le_pred (by decide) hdecoded.nesting_le
  exact loadTree_toJson hdecoded.named hnesting path

/-- The text of a loaded tree loads, to the settled tree.  This is the same tree unless
some list in it is written like a node, and only a list with the token of a `true` in it
can be.  The text of the settled tree loads to the settled tree. -/
theorem loadTree_toJson_of_loadTree
    {text path : String} {node : Node} (hload : loadTree text path = .ok node) :
    loadTree node.toJson path = .ok node.settle ∧
      (loadTree node.toJson path = .ok node ↔
        ∀ items ∈ node.lists, Slot.mimicsNode items = false) ∧
      (∀ items ∈ node.lists, Slot.mimicsNode items = true → .token "true" ∈ items) ∧
      loadTree node.settle.toJson path = .ok node.settle := by
  have hdecoded := decoded_of_loadTree hload
  have hsettles := settles_of_loadTree hload
  refine ⟨hsettles, ?_, hdecoded.flagged, ?_⟩
  · rw [hsettles, Except.ok.injEq]
    exact Node.settle_eq_self_iff hdecoded.named
  · have hagain := settles_of_loadTree hsettles
    rwa [Node.settle_settle] at hagain

theorem loadTree_of_render
    {text name : String} {value : Value} {node : Node}
    (htext : text.toList = (Value.object [("type", .string name), ("body", value)]).render)
    (hvalue : value.NumberFree) (hnesting : value.nesting < RootReader.depthLimit - 1)
    (hnode : (Body.ofValue? value).map (Body.toNode (Kind.ofName name)) = some node)
    (path : String) : loadTree text path = .ok node := by
  rw [loadTree_eq_ok_iff, htext]
  exact (RootReader.readAll_render_eq_ok_iff hvalue name node).2 ⟨hnesting, hnode⟩

/-- An absent slot, a leaf in its array form, and a list with a `true` in front that comes
back as a node. -/
theorem loadTree_toJson_of_loadTree_flag :
    let text := "\x7b\"type\":\"params\",\"body\":[false,[\"@ident\",\"a\"],[true,[\"x\"]]]\x7d"
    let name : Slot := .node (.leaf (.scanner .ident) "a")
    let node : Node := .branch (.parser .params)
      [.absent, name, .list [.token "true", .list [.token "x"]]]
    let settled : Node := .branch (.parser .params)
      [.absent, name, .node (.branch (.other "true") [.token "x"])]
    loadTree text "" = .ok node ∧ loadTree node.toJson "" = .ok settled ∧
      loadTree settled.toJson "" = .ok settled := by
  intro text name node settled
  have hload : loadTree text "" = .ok node :=
    @loadTree_of_render _ "params"
      (.array [.bool false, .array [.string "@ident", .string "a"],
        .array [.bool true, .array [.string "x"]]]) _
      (by decide +kernel) (by simp [Value.NumberFree, Value.AllNumberFree]) (by decide)
      (by decide +kernel) ""
  have hsettle : node.settle = settled := by decide +kernel
  obtain ⟨hsettles, -, -, hagain⟩ := loadTree_toJson_of_loadTree hload
  rw [hsettle] at hsettles hagain
  exact ⟨hload, hsettles, hagain⟩

/-- A `true` in front of a string is a list of two tokens, and these are written like a
leaf. -/
theorem loadTree_toJson_pair_of_true :
    let text := "\x7b\"type\":\"program\",\"body\":[[true,\"x\"]]\x7d"
    let node : Node := .branch (.parser .program) [.list [.token "true", .token "x"]]
    let settled : Node := .branch (.parser .program) [.node (.leaf (.other "true") "x")]
    loadTree text "" = .ok node ∧
      node.toJson = "\x7b\"type\":\"program\",\"body\":[[\"true\",\"x\"]]\x7d" ∧
      loadTree node.toJson "" = .ok settled ∧ loadTree node.toJson "" ≠ .ok node := by
  intro text node settled
  have hload : loadTree text "" = .ok node :=
    @loadTree_of_render _ "program" (.array [.array [.bool true, .string "x"]]) _
      (by decide +kernel) (by simp [Value.NumberFree, Value.AllNumberFree]) (by decide)
      (by decide +kernel) ""
  have hsettle : node.settle = settled := by decide +kernel
  have hsettles := settles_of_loadTree hload
  rw [hsettle] at hsettles
  refine ⟨hload, by decide +kernel, hsettles, ?_⟩
  rw [hsettles, ne_eq, Except.ok.injEq]
  decide +kernel

end TreeFormat
