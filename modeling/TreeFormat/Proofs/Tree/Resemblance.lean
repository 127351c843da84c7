import TreeFormat.Proofs.Tree.Positions

/-!
# Trees that differ in unknown nodes

Two trees resemble each other if they differ only in the bodies of nodes of unknown kind.
Everything that can be looked up at a node of known kind is then the same in both, or at
least alike: the same faults, the same tokens, children that resemble each other
(`Node.Resembles.childAt`).

Only a token is an exception.  A lookup of a token reads the text of a leaf of any kind, and
so it sees into a node of unknown kind.
-/

namespace TreeFormat

mutual

/-- Two nodes differ only in the bodies of nodes of unknown kind. -/
inductive Node.Resembles : Node → Node → Prop where
  | leaf (kind : Kind) (text : String) : Node.Resembles (.leaf kind text) (.leaf kind text)
  | branch (kind : Kind) {slots slots' : List Slot} (hslots : Slot.ResembleAll slots slots') :
      Node.Resembles (.branch kind slots) (.branch kind slots')
  | unknown {node node' : Node} (hkind : node.kind = node'.kind)
      (hunknown : node.kind.isKnown = false) : Node.Resembles node node'

/-- Two slots differ only in the bodies of nodes of unknown kind. -/
inductive Slot.Resembles : Slot → Slot → Prop where
  | absent : Slot.Resembles .absent .absent
  | token (text : String) : Slot.Resembles (.token text) (.token text)
  | node {child child' : Node} (hchild : Node.Resembles child child') :
      Slot.Resembles (.node child) (.node child')
  | list {items items' : List Slot} (hitems : Slot.ResembleAll items items') :
      Slot.Resembles (.list items) (.list items')

/-- Slots differ one by one only in the bodies of nodes of unknown kind. -/
inductive Slot.ResembleAll : List Slot → List Slot → Prop where
  | nil : Slot.ResembleAll [] []
  | cons {slot slot' : Slot} {slots slots' : List Slot} (hslot : Slot.Resembles slot slot')
      (hslots : Slot.ResembleAll slots slots') :
      Slot.ResembleAll (slot :: slots) (slot' :: slots')

end

/-- Two outcomes are the same fault, or results that are related. -/
inductive SameOutcome {ε α : Type} (rel : α → α → Prop) : Except ε α → Except ε α → Prop where
  | ok {value value' : α} (hvalue : rel value value') : SameOutcome rel (.ok value) (.ok value')
  | error (fault : ε) : SameOutcome rel (.error fault) (.error fault)

theorem SameOutcome.eq_or
    {ε α : Type} {rel : α → α → Prop} {outcome outcome' : Except ε α}
    (hsame : SameOutcome rel outcome outcome') :
    (∃ fault, outcome = .error fault ∧ outcome' = .error fault) ∨
      ∃ value value', outcome = .ok value ∧ outcome' = .ok value' ∧ rel value value' := by
  cases hsame with
  | ok hvalue => exact .inr ⟨_, _, rfl, rfl, hvalue⟩
  | error fault => exact .inl ⟨fault, rfl, rfl⟩

theorem Node.Resembles.kind_eq
    {node node' : Node} (hresembles : node.Resembles node') : node.kind = node'.kind := by
  cases hresembles with
  | leaf kind text => rfl
  | branch kind hslots => rfl
  | unknown hkind hunknown => exact hkind

namespace Slot

variable {slot slot' : Slot} {slots slots' : List Slot}

theorem ResembleAll.getElem?
    (hslots : ResembleAll slots slots') (index : Nat) :
    slots[index]? = none ∧ slots'[index]? = none ∨
      ∃ slot slot', slots[index]? = some slot ∧ slots'[index]? = some slot' ∧
        slot.Resembles slot' := by
  induction slots generalizing slots' index with
  | nil =>
      cases hslots
      exact .inl ⟨rfl, rfl⟩
  | cons slot slots ih =>
      cases hslots with
      | @cons _ slot' _ slots' hslot hslots =>
          cases index with
          | zero => exact .inr ⟨slot, slot', rfl, rfl, hslot⟩
          | succ index => simpa using ih hslots index

theorem ResembleAll.length_eq (hslots : ResembleAll slots slots') :
    slots.length = slots'.length := by
  induction slots generalizing slots' with
  | nil =>
      cases hslots
      rfl
  | cons slot slots ih =>
      cases hslots with
      | cons _ hslots => rw [List.length_cons, List.length_cons, ih hslots]

/-- The first nodes among slots are of the same kind. -/
theorem ResembleAll.child?_kind_eq (hslots : ResembleAll slots slots') :
    (slots.findSome? child?).map Node.kind = (slots'.findSome? child?).map Node.kind := by
  induction slots generalizing slots' with
  | nil =>
      cases hslots
      rfl
  | cons slot slots ih =>
      cases hslots with
      | @cons _ slot' _ slots' hslot hslots =>
          have hrest := ih hslots
          cases hslot with
          | absent => exact hrest
          | token text => exact hrest
          | list hitems => exact hrest
          | node hchild => exact congrArg some hchild.kind_eq

theorem Resembles.follow
    (hslot : slot.Resembles slot') (path : List Nat) :
    SameOutcome Resembles (slot.follow path) (slot'.follow path) := by
  induction path generalizing slot slot' with
  | nil =>
      cases slot <;> cases slot' <;> exact .ok hslot
  | cons index path ih =>
      cases hslot with
      | absent => exact .error _
      | token text => exact .error _
      | node hchild => exact .error _
      | @list items items' hitems =>
          rw [Slot.follow, Slot.follow]
          rcases hitems.getElem? index with ⟨hnone, hnone'⟩ | ⟨slot, slot', hsome, hsome', hslot⟩
          · rw [hnone, hnone']
            exact .error _
          · rw [hsome, hsome']
            exact ih hslot

end Slot

namespace Node

variable {node node' : Node}

/-! ## Lookups at nodes of known kind -/

variable (hresembles : node.Resembles node') (hknown : node.kind.isKnown = true)

include hresembles hknown

theorem Resembles.literal?_eq : node.literal? = node'.literal? := by
  cases hresembles with
  | leaf kind text => rfl
  | branch kind hslots => rfl
  | unknown hkind hunknown =>
      rw [hknown] at hunknown
      cases hunknown

theorem Resembles.slots : Slot.ResembleAll node.slots node'.slots := by
  cases hresembles with
  | leaf kind text => exact .nil
  | branch kind hslots => exact hslots
  | unknown hkind hunknown =>
      rw [hknown] at hunknown
      cases hunknown

theorem Resembles.slotAt (path : List Nat) :
    SameOutcome Slot.Resembles (node.slotAt path) (node'.slotAt path) := by
  cases hresembles with
  | leaf kind text => exact .error _
  | @branch kind slots slots' hslots =>
      rw [Node.slotAt, Node.slotAt]
      have hlist : (Slot.list slots).Resembles (.list slots') := .list hslots
      rcases (hlist.follow path).eq_or with ⟨obstacle, hfault, hfault'⟩ | ⟨_, _, hok, hok', hslot⟩
      · rw [hfault, hfault']
        exact .error _
      · rw [hok, hok']
        exact .ok hslot
  | unknown hkind hunknown =>
      rw [hknown] at hunknown
      cases hunknown

theorem Resembles.childAt (path : List Nat) :
    SameOutcome Resembles (node.childAt path) (node'.childAt path) := by
  have hkind := hresembles.kind_eq
  unfold Node.childAt
  rcases (hresembles.slotAt hknown path).eq_or with
    ⟨fault, hfault, hfault'⟩ | ⟨_, _, hok, hok', hslot⟩
  · rw [hfault, hfault']
    exact .error fault
  · rw [hok, hok', hkind]
    cases hslot with
    | node hchild => exact .ok hchild
    | _ => exact .error _

theorem Resembles.listAt (path : List Nat) :
    SameOutcome Slot.ResembleAll (node.listAt path) (node'.listAt path) := by
  have hkind := hresembles.kind_eq
  unfold Node.listAt
  rcases (hresembles.slotAt hknown path).eq_or with
    ⟨fault, hfault, hfault'⟩ | ⟨_, _, hok, hok', hslot⟩
  · rw [hfault, hfault']
    exact .error fault
  · rw [hok, hok', hkind]
    cases hslot with
    | list hitems => exact .ok hitems
    | _ => exact .error _

/-- The same token is read in both, provided that a node of unknown kind in its place is the
same in both. -/
theorem Resembles.tokenAt_eq
    {path : List Nat}
    (htoken : ∀ child, node.slotAt path = .ok (.node child) → child.kind.isKnown = false →
      node'.slotAt path = .ok (.node child)) :
    node.tokenAt path = node'.tokenAt path := by
  have hkind := hresembles.kind_eq
  unfold Node.tokenAt
  rcases (hresembles.slotAt hknown path).eq_or with
    ⟨fault, hfault, hfault'⟩ | ⟨_, _, hok, hok', hslot⟩
  · rw [hfault, hfault']
    rfl
  · rw [hok, hok', hkind]
    cases hslot with
    | absent => rfl
    | token text => rfl
    | list hitems => rfl
    | node hchild =>
        cases hchild with
        | leaf kind text => rfl
        | branch kind hslots => rfl
        | unknown hsame hunknown =>
            have hfound := htoken _ hok hunknown
            rw [hok'] at hfound
            cases hfound
            rfl

theorem Resembles.has_eq (path : List Nat) : node.has path = node'.has path := by
  unfold Node.has
  rcases (hresembles.slotAt hknown path).eq_or with
    ⟨fault, hfault, hfault'⟩ | ⟨_, _, hok, hok', hslot⟩
  · rw [hfault, hfault']
  · rw [hok, hok']
    cases hslot <;> rfl

theorem Resembles.listLength_eq (path : List Nat) :
    node.listLength path = node'.listLength path := by
  unfold Node.listLength
  rcases (hresembles.slotAt hknown path).eq_or with
    ⟨fault, hfault, hfault'⟩ | ⟨_, _, hok, hok', hslot⟩
  · rw [hfault, hfault']
  · rw [hok, hok']
    cases hslot with
    | list hitems => exact hitems.length_eq
    | _ => rfl

end Node

end TreeFormat
