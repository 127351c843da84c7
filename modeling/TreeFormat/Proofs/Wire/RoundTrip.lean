import TreeFormat.Proofs.Wire.Decoding
import TreeFormat.Tree.Load

/-!
# Trees read back from their text

The text of a tree is an object with a type and a body.  The root reader takes
its two members one after the other, and the body is read as a value first.  So
the text loads to the same tree exactly if the value nests less deeply than the
reader's limit and decoding undoes encoding (`loadTree_toJson_eq_ok_iff`).
-/

namespace TreeFormat

open Json (Value Fault)
open Json.Value (renderFields ReadsBack)

namespace RootReader

/-! ## The members of the root -/

theorem lift_ok {α : Type} (value : α) : lift (.ok value) = .ok value := rfl

theorem readType_render
    (name : String) (rest : List Char) :
    readType ((Value.string name).render ++ rest) = .ok (Kind.ofName name, rest) := by
  have hread := Json.Quoted.read_render name rest
  simp [Value.render, Json.Quoted.render, readType, Json.skipBlanks, Json.isBlank, hread, lift_ok]

theorem readFields_type
    (room fuel : Nat) (first : Bool) (name : String) (body? : Option Body)
    (members : List (String × Value)) (rest : List Char) :
    readFields room (fuel + 1) first none body?
        (renderFields first (("type", .string name) :: members) ++ rest) =
      readFields room fuel false (some (Kind.ofName name)) body?
        (renderFields false members ++ rest) := by
  rw [readFields, Value.nextKey_cons]
  simp only [lift_ok, bind, Except.bind, Value.expectColon_colon,
    readType_render]
  rfl

theorem readFields_body
    (room fuel : Nat) (first : Bool) (kind : Kind) (value : Value)
    (members : List (String × Value)) (rest : List Char) :
    readFields room (fuel + 1) first (some kind) none
        (renderFields first (("body", value) :: members) ++ rest) =
      readBody room (value.render ++ (renderFields false members ++ rest)) >>=
        fun (body, text) => readFields room fuel false (some kind) (some body) text := by
  rw [readFields, Value.nextKey_cons]
  simp only [lift_ok, bind, Except.bind, Value.expectColon_colon]
  rfl

theorem readFields_end
    (room fuel : Nat) (first : Bool) (kind : Kind) (body : Body) (rest : List Char) :
    readFields room (fuel + 1) first (some kind) (some body)
        (renderFields first [] ++ rest) =
      .ok (body.toNode kind, renderFields first [] ++ rest) := by
  rw [readFields, Value.nextKey_nil]
  rfl

theorem closeObject_renderFields
    (first : Bool) (rest : List Char) :
    closeObject (renderFields first [] ++ rest) = (rest, none) := by
  cases first <;> simp [renderFields, Value.renderMembers, Value.renderMoreMembers, closeObject,
    Json.skipBlanks, Json.isBlank]

/-! ## The root -/

/-- A body that nests less deeply than there is room for is read as the value
that was written, and then either stands for a body or is a misfit. -/
theorem readBody_render
    {value : Value} (hvalue : value.NumberFree) {room : Nat} (hnesting : value.nesting < room)
    (rest : List Char) :
    readBody room (value.render ++ rest) =
      match Body.ofValue? value with
      | some body => .ok (body, rest)
      | none => .error (.unfit .notBody rest) := by
  have hread := (Value.read_render hvalue (Nat.zero_lt_of_lt hnesting) rest).1 hnesting
  rw [readBody, hread]
  rfl

theorem readBody_render_of_deep
    {value : Value} (hvalue : value.NumberFree) {room : Nat} (hroom : 0 < room)
    (hnesting : ¬value.nesting < room) (rest : List Char) :
    ∃ refusal, readBody room (value.render ++ rest) = .error (.refused refusal) := by
  obtain ⟨unread, hread⟩ := (Value.read_render hvalue hroom rest).2 hnesting
  exact ⟨.ofFault ⟨.tooDeep, unread⟩, by rw [readBody, hread]; rfl⟩

theorem readRoot_render
    (name : String) (value : Value) :
    ∃ fuel, readRoot (Value.object [("type", .string name), ("body", value)]).render =
      close closeObject
        (readBody (depthLimit - 1) (value.render ++ (renderFields false [] ++ [])) >>=
          fun (body, text) =>
            readFields (depthLimit - 1) (fuel + 1) false (some (Kind.ofName name)) (some body)
              text) := by
  let members : List (String × Value) := [("type", .string name), ("body", value)]
  have hrender : (Value.object members).render = '\x7b' :: renderFields true members := by
    rw [Value.render, renderFields, if_pos rfl]
  have hlength : 2 ≤ (renderFields true members).length := by
    simp only [members, renderFields, if_true, Value.renderMembers, Json.Quoted.render,
      List.length_append, List.length_cons]
    omega
  obtain ⟨fuel, hfuel⟩ : ∃ fuel, (renderFields true members).length + 1 = fuel + 3 :=
    ⟨(renderFields true members).length - 2, by omega⟩
  have hfields : readFields (depthLimit - 1) (fuel + 3) true none none
      (renderFields true members ++ []) = _ :=
    (readFields_type _ (fuel + 2) true name none [("body", value)] []).trans
      (readFields_body _ (fuel + 1) false (Kind.ofName name) value [] [])
  refine ⟨fuel, ?_⟩
  rw [← hfields, List.append_nil, ← hfuel, hrender]
  rfl

/-- The text of an object with a type and a body is loaded if the body nests less
deeply than the root leaves room for and stands for a body, and the node is the
one of that type and body. -/
theorem readAll_render_eq_ok_iff
    {value : Value} (hvalue : value.NumberFree) (name : String) (node : Node) :
    readAll (Value.object [("type", .string name), ("body", value)]).render = .ok node ↔
      value.nesting < depthLimit - 1 ∧
        (Body.ofValue? value).map (Body.toNode (Kind.ofName name)) = some node := by
  obtain ⟨fuel, hroot⟩ := readRoot_render name value
  rw [readAll, hroot]
  by_cases hnesting : value.nesting < depthLimit - 1
  · rw [readBody_render hvalue hnesting]
    cases hbody : Body.ofValue? value with
    | none => simp [bind, Except.bind, close]
    | some body =>
        simp only [bind, Except.bind, readFields_end, close, closeObject_renderFields]
        simp [Json.skipBlanks, hnesting, pure, Except.pure]
  · obtain ⟨refusal, hrefused⟩ := readBody_render_of_deep hvalue (by decide) hnesting
      (renderFields false [] ++ [])
    rw [hrefused]
    simp [bind, Except.bind, close, hnesting]

end RootReader

/-! ## The whole text -/

theorem loadTree_eq_ok_iff
    {text path : String} {node : Node} :
    loadTree text path = .ok node ↔ RootReader.readAll text.toList = .ok node := by
  rw [loadTree]
  cases RootReader.readAll text.toList <;> simp

/-- A tree is loaded back from the text of its wire form exactly if the text has
fewer than 128 arrays and objects open at once and no list in the tree is written
like a node. -/
theorem loadTree_toJson_eq_ok_iff
    (node : Node) (path : String) (hkinds : ∀ kind ∈ node.kinds, kind.IsNamed) :
    loadTree node.toJson path = .ok node ↔
      node.toValue.nesting < 128 ∧
        ∀ items ∈ node.lists, Slot.mimicsNode items = false := by
  rw [loadTree_eq_ok_iff, Node.toJson, String.toList_ofList]
  cases node with
  | leaf kind text =>
      have hkind : kind.IsNamed := hkinds kind (by simp [Node.kinds])
      rw [Node.toValue, RootReader.readAll_render_eq_ok_iff (by simp [Value.NumberFree])]
      simp [Body.ofValue?, Body.toNode, Kind.ofName_name hkind, Value.nesting,
        Value.nestingMembers, Node.lists, RootReader.depthLimit]
  | branch kind slots =>
      rw [Node.kinds, List.forall_mem_cons] at hkinds
      have hfree : (Value.array (Slot.toValues slots)).NumberFree := by
        rw [Value.NumberFree]
        exact Slot.numberFree_toValues slots
      rw [Node.toValue, RootReader.readAll_render_eq_ok_iff hfree]
      have hdecode : (Body.ofValue? (.array (Slot.toValues slots))).map
          (Body.toNode (Kind.ofName kind.name)) = some (.branch kind slots) ↔
            Slot.ofValues? (Slot.toValues slots) = some slots := by
        rw [Body.ofValue?, Kind.ofName_name hkinds.1]
        cases Slot.ofValues? (Slot.toValues slots) <;> simp [Body.toNode]
      rw [hdecode, Slot.ofValues?_toValues_iff hkinds.2, Node.lists]
      apply and_congr_left'
      simp only [Value.nesting, Value.nestingMembers, RootReader.depthLimit]
      omega

/-- A call through `&.` with escapes in a token, an absent element behind a token,
and a list of three elements. -/
theorem loadTree_toJson_safeCall :
    let node : Node := .branch (.parser .call) [
      .node (.leaf (.scanner .ident) "a"),
      .token "&.",
      .list [.token "\"\n\u0001", .absent],
      .list [.token "x", .token "y", .node (.branch (.other "@heredoc_end") [.list []])]]
    (∀ kind ∈ node.kinds, kind.IsNamed) ∧ loadTree node.toJson "tree.json" = .ok node := by
  intro node
  have hkinds : ∀ kind ∈ node.kinds, kind.IsNamed := by
    have hnode : node.kinds = [.parser .call, .scanner .ident, .other "@heredoc_end"] := by
      decide
    rw [hnode]
    simp only [List.forall_mem_cons, List.not_mem_nil, false_imp_iff, implies_true, and_true]
    exact ⟨⟨"call", by decide +kernel⟩, ⟨"@ident", by decide +kernel⟩,
      ⟨"@heredoc_end", by decide +kernel⟩⟩
  exact ⟨hkinds, (loadTree_toJson_eq_ok_iff node "tree.json" hkinds).2
    ⟨by decide, by decide⟩⟩

end TreeFormat
