import TreeFormat.Tree.Lookup

/-!
# Lookups that succeed

What a successful lookup says about the slots of a node, and that everything below
a node is lower than the node.
-/

namespace TreeFormat

namespace Slot

theorem follow_cons_eq_ok_iff
    {slot found : Slot} {index : Nat} {path : List Nat} :
    slot.follow (index :: path) = .ok found ↔
      ∃ items next, slot = .list items ∧ items[index]? = some next ∧
        next.follow path = .ok found := by
  cases slot with
  | list items =>
      rw [follow]
      cases hnext : items[index]? with
      | none => simp [hnext]
      | some next => simp [hnext]
  | absent => simp [follow]
  | token text => simp [follow]
  | node child => simp [follow]

theorem follow_concat_eq_ok_iff
    {slot found : Slot} {path : List Nat} {index : Nat} :
    slot.follow (path ++ [index]) = .ok found ↔
      ∃ items, slot.follow path = .ok (.list items) ∧ items[index]? = some found := by
  induction path generalizing slot with
  | nil =>
      rw [List.nil_append, follow_cons_eq_ok_iff]
      simp [follow]
  | cons first path ih =>
      rw [List.cons_append, follow_cons_eq_ok_iff]
      constructor
      · rintro ⟨items, next, hslot, hnext, hfound⟩
        obtain ⟨inner, hinner, hitem⟩ := ih.1 hfound
        exact ⟨inner, follow_cons_eq_ok_iff.2 ⟨items, next, hslot, hnext, hinner⟩, hitem⟩
      · rintro ⟨inner, hinner, hitem⟩
        obtain ⟨items, next, hslot, hnext, hfollow⟩ := follow_cons_eq_ok_iff.1 hinner
        exact ⟨items, next, hslot, hnext, ih.2 ⟨inner, hfollow, hitem⟩⟩

theorem height_follow
    {slot found : Slot} {path : List Nat} (hfound : slot.follow path = .ok found) :
    found.height ≤ slot.height := by
  induction path generalizing slot with
  | nil =>
      cases slot <;> cases hfound <;> exact Nat.le_refl _
  | cons index path ih =>
      obtain ⟨items, next, rfl, hnext, hfound⟩ := follow_cons_eq_ok_iff.1 hfound
      calc
        found.height ≤ next.height := ih hfound
        _ ≤ heights items := height_le_heights (List.mem_of_getElem? hnext)
        _ = (list items).height := by rw [height]

end Slot

namespace Node

theorem slotAt_nil_eq_ok
    {node : Node} {slot : Slot} (hslot : node.slotAt [] = .ok slot) : slot = .list node.slots := by
  cases node with
  | leaf kind text => cases hslot
  | branch kind slots =>
      cases hslot
      rfl

theorem slotAt_branch_eq_ok_iff
    {kind : Kind} {slots : List Slot} {path : List Nat} {found : Slot} :
    (branch kind slots).slotAt path = .ok found ↔ (Slot.list slots).follow path = .ok found := by
  rw [slotAt]
  cases (Slot.list slots).follow path with
  | error obstacle =>
      constructor
      · intro hfound
        cases hfound
      · intro hfound
        cases hfound
  | ok slot =>
      constructor
      · intro hfound
        cases hfound
        rfl
      · intro hfound
        cases hfound
        rfl

theorem slotAt_cons_eq_ok_iff
    {node : Node} {found : Slot} {index : Nat} {path : List Nat} :
    node.slotAt (index :: path) = .ok found ↔
      ∃ slot, node.slots[index]? = some slot ∧ slot.follow path = .ok found := by
  cases node with
  | leaf kind text => simp [slotAt, slots]
  | branch kind slots =>
      rw [slotAt_branch_eq_ok_iff, Slot.follow_cons_eq_ok_iff]
      simp

theorem slotAt_singleton_eq_ok_iff
    {node : Node} {found : Slot} {index : Nat} :
    node.slotAt [index] = .ok found ↔ node.slots[index]? = some found := by
  rw [slotAt_cons_eq_ok_iff]
  simp [Slot.follow]

/-- Slots that are counted from an index start with the slot there. -/
theorem slotAt_of_drop_eq_cons
    {node : Node} {index : Nat} {slot : Slot} {rest : List Slot}
    (hdrop : node.slots.drop index = slot :: rest) :
    node.slotAt [index] = .ok slot ∧ node.slots.drop (index + 1) = rest := by
  constructor
  · rw [slotAt_singleton_eq_ok_iff, ← List.head?_drop, hdrop]
    rfl
  · rw [← List.tail_drop, hdrop]
    rfl

/-- A slot path ends in an element of the list at the path before its last index. -/
theorem slotAt_concat_eq_ok_iff
    {node : Node} {path : List Nat} {index : Nat} {found : Slot} :
    node.slotAt (path ++ [index]) = .ok found ↔
      ∃ items, node.slotAt path = .ok (.list items) ∧ items[index]? = some found := by
  cases node with
  | leaf kind text => simp [slotAt]
  | branch kind slots =>
      rw [slotAt_branch_eq_ok_iff, Slot.follow_concat_eq_ok_iff]
      simp only [slotAt_branch_eq_ok_iff]

theorem childAt_eq_ok_iff
    {node child : Node} {path : List Nat} :
    node.childAt path = .ok child ↔ node.slotAt path = .ok (.node child) := by
  unfold childAt
  cases node.slotAt path with
  | error fault => simp [bind, Except.bind]
  | ok slot =>
      cases slot <;>
        simp [bind, Except.bind, pure, Except.pure, throw, throwThe, MonadExceptOf.throw]

theorem listAt_eq_ok_iff
    {node : Node} {path : List Nat} {items : List Slot} :
    node.listAt path = .ok items ↔ node.slotAt path = .ok (.list items) := by
  unfold listAt
  cases node.slotAt path with
  | error fault => simp [bind, Except.bind]
  | ok slot =>
      cases slot <;>
        simp [bind, Except.bind, pure, Except.pure, throw, throwThe, MonadExceptOf.throw]

theorem tokenAt_eq_ok
    {node : Node} {path : List Nat} {text : String} (htoken : node.tokenAt path = .ok text) :
    node.slotAt path = .ok (.token text) ∨
      ∃ kind, node.slotAt path = .ok (.node (.leaf kind text)) := by
  unfold tokenAt at htoken
  cases hslot : node.slotAt path with
  | error fault =>
      rw [hslot] at htoken
      cases htoken
  | ok slot =>
      rw [hslot] at htoken
      cases slot with
      | absent => cases htoken
      | list items => cases htoken
      | token content =>
          cases htoken
          exact .inl rfl
      | node child =>
          cases child with
          | branch kind slots => cases htoken
          | leaf kind content =>
              cases htoken
              exact .inr ⟨kind, rfl⟩

/-! ## Heights -/

theorem heights_slots_lt (node : Node) : Slot.heights node.slots < node.height := by
  cases node with
  | leaf kind text => simp [slots, Slot.heights, height]
  | branch kind slots =>
      rw [height, slots_branch]
      omega

theorem height_slotAt_lt
    {node : Node} {path : List Nat} {found : Slot} (hfound : node.slotAt path = .ok found) :
    found.height < node.height := by
  cases path with
  | nil =>
      rw [slotAt_nil_eq_ok hfound, Slot.height]
      exact heights_slots_lt node
  | cons index path =>
      obtain ⟨slot, hslot, hfollow⟩ := slotAt_cons_eq_ok_iff.1 hfound
      calc
        found.height ≤ slot.height := Slot.height_follow hfollow
        _ ≤ Slot.heights node.slots := Slot.height_le_heights (List.mem_of_getElem? hslot)
        _ < node.height := heights_slots_lt node

theorem height_childAt_lt
    {node child : Node} {path : List Nat} (hchild : node.childAt path = .ok child) :
    child.height < node.height :=
  height_slotAt_lt (childAt_eq_ok_iff.1 hchild)

theorem heights_listAt_lt
    {node : Node} {path : List Nat} {items : List Slot} (hitems : node.listAt path = .ok items) :
    Slot.heights items < node.height :=
  height_slotAt_lt (listAt_eq_ok_iff.1 hitems)

end Node

end TreeFormat
