import TreeFormat.Tree.Kind

/-!
# Syntax trees

A node is a leaf token with its text, or a composite node with a list of slots
whose number depends on the kind.  A slot holds nothing, a raw token, a child,
or a list of slots.

Trees are compared by structure, and the height of a node bounds the length of
every way down from it.
-/

namespace TreeFormat

mutual

/-- A node of a syntax tree. -/
inductive Node where
  /-- A token of the language with its literal text. -/
  | leaf (kind : Kind) (text : String)
  /-- A composite node. -/
  | branch (kind : Kind) (slots : List Slot)

/-- One position of a composite node. -/
inductive Slot where
  /-- An optional child that is not present. -/
  | absent
  /-- A raw token, such as an operator or a call connector. -/
  | token (text : String)
  | node (child : Node)
  | list (items : List Slot)

end

instance : Inhabited Node := ⟨.branch (.other "") []⟩

instance : Inhabited Slot := ⟨.absent⟩

namespace Node

/-- What the node is. -/
def kind : Node → Kind
  | leaf kind _ => kind
  | branch kind _ => kind

/-- The text of a leaf. -/
def literal? : Node → Option String
  | leaf _ text => some text
  | branch _ _ => none

/-- The slots of a composite node; a leaf has none. -/
def slots : Node → List Slot
  | leaf _ _ => []
  | branch _ slots => slots

@[simp] theorem kind_leaf (kind : Kind) (text : String) : (leaf kind text).kind = kind := rfl

@[simp] theorem kind_branch (kind : Kind) (slots : List Slot) : (branch kind slots).kind = kind :=
  rfl

@[simp] theorem slots_branch (kind : Kind) (slots : List Slot) :
    (branch kind slots).slots = slots := rfl

end Node

namespace Slot

/-- The child that a slot holds. -/
def child? : Slot → Option Node
  | node child => some child
  | _ => none

/-- A slot for a child that may be missing. -/
def ofOption : Option Node → Slot
  | some child => node child
  | none => absent

/-- A slot that lists children. -/
def ofNodes (children : List Node) : Slot :=
  list (children.map node)

end Slot

/-! ## Equality -/

mutual

/-- Whether two nodes are the same tree. -/
def Node.same : Node → Node → Bool
  | .leaf kind text, .leaf kind' text' => decide (kind = kind') && decide (text = text')
  | .branch kind slots, .branch kind' slots' => decide (kind = kind') && Slot.sameAll slots slots'
  | _, _ => false

/-- Whether two slots hold the same. -/
def Slot.same : Slot → Slot → Bool
  | .absent, .absent => true
  | .token text, .token text' => decide (text = text')
  | .node child, .node child' => child.same child'
  | .list items, .list items' => Slot.sameAll items items'
  | _, _ => false

/-- Whether two lists of slots hold the same, position by position. -/
def Slot.sameAll : List Slot → List Slot → Bool
  | [], [] => true
  | slot :: slots, slot' :: slots' => slot.same slot' && Slot.sameAll slots slots'
  | _, _ => false

end

mutual

theorem Node.eq_of_same : ∀ {a b : Node}, a.same b = true → a = b
  | .leaf _ _, .leaf _ _, h => by simpa [Node.same] using h
  | .branch _ _, .branch _ _, h => by
    rw [Node.same, Bool.and_eq_true, decide_eq_true_eq] at h
    rw [h.1, Slot.eq_of_sameAll h.2]
  | .leaf _ _, .branch _ _, h => by simp [Node.same] at h
  | .branch _ _, .leaf _ _, h => by simp [Node.same] at h

theorem Slot.eq_of_same : ∀ {a b : Slot}, a.same b = true → a = b
  | .absent, .absent, _ => rfl
  | .token _, .token _, h => by simpa [Slot.same] using h
  | .node _, .node _, h => by
    rw [Slot.same] at h
    rw [Node.eq_of_same h]
  | .list _, .list _, h => by
    rw [Slot.same] at h
    rw [Slot.eq_of_sameAll h]
  | .absent, .token _, h | .absent, .node _, h | .absent, .list _, h
  | .token _, .absent, h | .token _, .node _, h | .token _, .list _, h
  | .node _, .absent, h | .node _, .token _, h | .node _, .list _, h
  | .list _, .absent, h | .list _, .token _, h | .list _, .node _, h => by
    simp [Slot.same] at h

theorem Slot.eq_of_sameAll : ∀ {a b : List Slot}, Slot.sameAll a b = true → a = b
  | [], [], _ => rfl
  | _ :: _, _ :: _, h => by
    rw [Slot.sameAll, Bool.and_eq_true] at h
    rw [Slot.eq_of_same h.1, Slot.eq_of_sameAll h.2]
  | [], _ :: _, h => by simp [Slot.sameAll] at h
  | _ :: _, [], h => by simp [Slot.sameAll] at h

end

mutual

theorem Node.same_self : ∀ a : Node, a.same a = true
  | .leaf _ _ => by simp [Node.same]
  | .branch _ slots => by simp [Node.same, Slot.sameAll_self slots]

theorem Slot.same_self : ∀ a : Slot, a.same a = true
  | .absent => rfl
  | .token _ => by simp [Slot.same]
  | .node child => by rw [Slot.same]; exact Node.same_self child
  | .list items => by rw [Slot.same]; exact Slot.sameAll_self items

theorem Slot.sameAll_self : ∀ a : List Slot, Slot.sameAll a a = true
  | [] => rfl
  | slot :: slots => by
    rw [Slot.sameAll, Slot.same_self slot, Slot.sameAll_self slots, Bool.and_self]

end

theorem Node.same_iff {a b : Node} : a.same b = true ↔ a = b :=
  ⟨Node.eq_of_same, fun h => h ▸ Node.same_self a⟩

theorem Slot.same_iff {a b : Slot} : a.same b = true ↔ a = b :=
  ⟨Slot.eq_of_same, fun h => h ▸ Slot.same_self a⟩

instance : DecidableEq Node := fun _ _ => decidable_of_iff _ Node.same_iff

instance : DecidableEq Slot := fun _ _ => decidable_of_iff _ Slot.same_iff

/-! ## Height -/

mutual

/-- The number of nodes on the longest way down from a node, the node included. -/
def Node.height : Node → Nat
  | .leaf _ _ => 1
  | .branch _ slots => 1 + Slot.heights slots

/-- The number of nodes on the longest way down through a slot. -/
def Slot.height : Slot → Nat
  | .absent => 0
  | .token _ => 0
  | .node child => child.height
  | .list items => Slot.heights items

/-- The number of nodes on the longest way down through one of several slots. -/
def Slot.heights : List Slot → Nat
  | [] => 0
  | slot :: slots => max slot.height (Slot.heights slots)

end

theorem Node.height_pos : ∀ node : Node, 0 < node.height
  | .leaf _ _ => by simp [Node.height]
  | .branch _ _ => by rw [Node.height]; omega

theorem Slot.height_le_heights : ∀ {slots : List Slot} {slot : Slot},
    slot ∈ slots → slot.height ≤ Slot.heights slots
  | first :: rest, slot, h => by
    rw [Slot.heights]
    rcases List.mem_cons.1 h with rfl | h
    · exact Nat.le_max_left _ _
    · exact Nat.le_trans (Slot.height_le_heights h) (Nat.le_max_right _ _)

end TreeFormat
