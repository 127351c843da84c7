import TreeFormat.Tree.Node

/-!
# Contents of slots

What a slot holds, described from outside: a child, a token, a list, or nothing.  Which
children will do is left open, so that a description of nodes can ask for the same of the
children that it asks for of the node itself.
-/

namespace TreeFormat

namespace Slot

variable (good : Node → Prop)

/-- A good child. -/
inductive IsChild : Slot → Prop where
  | node {child : Node} (hgood : good child) : IsChild (.node child)

/-- A good child, or nothing. -/
inductive IsOptional : Slot → Prop where
  | absent : IsOptional .absent
  | node {child : Node} (hgood : good child) : IsOptional (.node child)

/-- A token, as it is or as the text of a leaf. -/
inductive IsToken : Slot → Prop where
  | token (content : String) : IsToken (.token content)
  | leaf (kind : Kind) (content : String) : IsToken (.node (.leaf kind content))

/-- A list of entries. -/
inductive IsList (entry : Slot → Prop) : Slot → Prop where
  | list {items : List Slot} (hitems : ∀ item ∈ items, entry item) : IsList entry (.list items)

/-- A list of entries, or nothing. -/
inductive IsOptionalList (entry : Slot → Prop) : Slot → Prop where
  | absent : IsOptionalList entry .absent
  | list {items : List Slot} (hitems : ∀ item ∈ items, entry item) :
      IsOptionalList entry (.list items)

/-- The name and the default of an optional parameter. -/
inductive IsPair : Slot → Prop where
  | list {name default : Node} {rest : List Slot} (hname : good name) (hdefault : good default) :
      IsPair (.list (.node name :: .node default :: rest))

/-- The label of a keyword parameter, with a default or without one. -/
inductive IsKeyword : Slot → Prop where
  | list {label : Node} {rest : List Slot} (hlabel : good label)
      (hdefault : ∀ slot ∈ rest[0]?, IsOptional good slot) :
      IsKeyword (.list (.node label :: rest))

/-- What can stand between parentheses. -/
inductive IsParenthesized : Slot → Prop where
  | absent : IsParenthesized .absent
  | token (content : String) : IsParenthesized (.token content)
  | node {child : Node} (hgood : good child) : IsParenthesized (.node child)
  | list {items : List Slot} (hitems : ∀ item ∈ items, IsOptional good item) :
      IsParenthesized (.list items)

/-- A slot that is there and holds what it should. -/
inductive Present (entry : Slot → Prop) : Option Slot → Prop where
  | some {slot : Slot} (hentry : entry slot) : Present entry (some slot)

theorem Present.exists_slot
    {entry : Slot → Prop} {found : Option Slot} (hfound : Present entry found) :
    ∃ slot, found = Option.some slot ∧ entry slot := by
  obtain ⟨hentry⟩ := hfound
  exact ⟨_, rfl, hentry⟩

end Slot

end TreeFormat
