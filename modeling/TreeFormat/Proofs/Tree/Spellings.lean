import Mathlib.Data.List.Forall2
import Mathlib.Logic.Relation
import TreeFormat.Proofs.Tree.Paths
import TreeFormat.Proofs.Tree.Resemblance

/-!
# Spellings of a tree

The same tree can be written down in more than one way.  An operator or a connector is a raw
token or the text of a leaf, and a slot at the end that holds nothing may be left out.
`Node.Respells` is one change from one spelling to another, at any depth outside the nodes of
unknown kind.

What can be looked up at a node stays the same through such a change: the same token
(`Node.MayRespell.tokenAt`), and a child or a list where there was one
(`Node.MayRespell.childAt`, `Node.MayRespell.listAt`).  A slot that is missing and one that
holds nothing are both not there (`Node.MayRespell.has_eq`).  Lookups that fail may fail in
two ways.
-/

namespace TreeFormat

mutual

/-- The second node is the first one with one place in it spelled in another way.  Nodes of
unknown kind are left as they are. -/
inductive Node.Respells : Node → Node → Prop where
  /-- The raw token in the second slot of an operation or a call becomes the text of a leaf. -/
  | wrap {kind : Kind} (hkind : kind = .parser .binary ∨ kind = .parser .call) (first : Slot)
      (text : String) (wrapper : Kind) (rest : List Slot) :
      Node.Respells (.branch kind (first :: .token text :: rest))
        (.branch kind (first :: .node (.leaf wrapper text) :: rest))
  /-- One more slot at the end holds nothing. -/
  | pad {kind : Kind} (hknown : kind.isKnown = true) (slots : List Slot) :
      Node.Respells (.branch kind slots) (.branch kind (slots ++ [.absent]))
  /-- The place is further down. -/
  | inside {kind : Kind} (hknown : kind.isKnown = true) {slot slot' : Slot}
      (hslot : Slot.Respells slot slot') (front back : List Slot) :
      Node.Respells (.branch kind (front ++ slot :: back)) (.branch kind (front ++ slot' :: back))

/-- The second slot holds the same with one place in it spelled in another way. -/
inductive Slot.Respells : Slot → Slot → Prop where
  | node {child child' : Node} (hchild : Node.Respells child child') :
      Slot.Respells (.node child) (.node child')
  | list {slot slot' : Slot} (hslot : Slot.Respells slot slot') (front back : List Slot) :
      Slot.Respells (.list (front ++ slot :: back)) (.list (front ++ slot' :: back))

end

/-- Two nodes are the same, or one place is spelled in another way. -/
abbrev Node.MayRespell : Node → Node → Prop :=
  Relation.ReflGen Node.Respells

/-- Two slots hold the same, or one place is spelled in another way. -/
abbrev Slot.MayRespell : Slot → Slot → Prop :=
  Relation.ReflGen Slot.Respells

/-! ## Slots -/

namespace Slot

/-- What two slots hold that are the same or spelled in two ways.  A list inside a slot keeps its
length: only the slots of a node are padded. -/
inductive HoldSame : Slot → Slot → Prop where
  | absent : HoldSame .absent .absent
  | token (text : String) : HoldSame (.token text) (.token text)
  | node {child child' : Node} (hchild : child.MayRespell child') :
      HoldSame (.node child) (.node child')
  | list {items items' : List Slot} (hitems : List.Forall₂ MayRespell items items') :
      HoldSame (.list items) (.list items')

theorem forall₂_mayRespell_self (slots : List Slot) : List.Forall₂ MayRespell slots slots :=
  List.forall₂_same.2 fun _ _ => .refl

theorem forall₂_mayRespell_middle
    {slot slot' : Slot} (hslot : slot.MayRespell slot') (front back : List Slot) :
    List.Forall₂ MayRespell (front ++ slot :: back) (front ++ slot' :: back) :=
  List.rel_append (forall₂_mayRespell_self front) (.cons hslot (forall₂_mayRespell_self back))

theorem MayRespell.holdSame {slot slot' : Slot} (hslot : slot.MayRespell slot') :
    HoldSame slot slot' := by
  cases hslot with
  | refl =>
      cases slot with
      | absent => exact .absent
      | token text => exact .token text
      | node child => exact .node .refl
      | list items => exact .list (forall₂_mayRespell_self items)
  | single hslot =>
      cases hslot with
      | node hchild => exact .node (.single hchild)
      | list hslot front back => exact .list (forall₂_mayRespell_middle (.single hslot) front back)

theorem getElem?_of_forall₂
    {rel : Slot → Slot → Prop} {slots slots' : List Slot} (hslots : List.Forall₂ rel slots slots')
    (index : Nat) :
    slots[index]? = none ∧ slots'[index]? = none ∨
      ∃ slot slot', slots[index]? = some slot ∧ slots'[index]? = some slot' ∧ rel slot slot' := by
  induction hslots generalizing index with
  | nil => exact .inl ⟨rfl, rfl⟩
  | cons hslot _ ih =>
      cases index with
      | zero => exact .inr ⟨_, _, rfl, rfl, hslot⟩
      | succ index => simpa using ih index

theorem MayRespell.follow
    {slot slot' : Slot} (hslot : slot.MayRespell slot') (path : List Nat) :
    SameOutcome MayRespell (slot.follow path) (slot'.follow path) := by
  induction path generalizing slot slot' with
  | nil =>
      rw [follow_nil, follow_nil]
      exact .ok hslot
  | cons index path ih =>
      cases hslot.holdSame with
      | absent => exact .error _
      | token text => exact .error _
      | node hchild => exact .error _
      | list hitems =>
          rw [Slot.follow, Slot.follow]
          rcases getElem?_of_forall₂ hitems index with
            ⟨hnone, hnone'⟩ | ⟨slot, slot', hsome, hsome', hslot⟩
          · rw [hnone, hnone']
            exact .error _
          · rw [hsome, hsome']
            exact ih hslot

/-- What a lookup finds in the place of a slot. -/
inductive StandsFor : Slot → Slot → Prop where
  | spelled {slot slot' : Slot} (hslot : slot.MayRespell slot') : StandsFor slot slot'
  | wrapped (text : String) (wrapper : Kind) :
      StandsFor (.token text) (.node (.leaf wrapper text))

/-- Slots correspond one by one, and then come more of them that hold nothing. -/
inductive Extend (rel : Slot → Slot → Prop) : List Slot → List Slot → Prop where
  | absent (count : Nat) : Extend rel [] (List.replicate count .absent)
  | cons {slot slot' : Slot} {slots slots' : List Slot} (hslot : rel slot slot')
      (hslots : Extend rel slots slots') : Extend rel (slot :: slots) (slot' :: slots')

namespace Extend

variable {rel : Slot → Slot → Prop} {slots slots' : List Slot}

theorem of_forall₂ (hslots : List.Forall₂ rel slots slots') : Extend rel slots slots' := by
  induction hslots with
  | nil => exact .absent 0
  | cons hslot _ ih => exact .cons hslot ih

theorem concat_absent (hrefl : ∀ slot, rel slot slot) (slots : List Slot) :
    Extend rel slots (slots ++ [.absent]) := by
  induction slots with
  | nil => exact .absent 1
  | cons slot slots ih => exact .cons (hrefl slot) ih

theorem getElem? (hslots : Extend rel slots slots') (index : Nat) :
    (∃ slot slot', slots[index]? = some slot ∧ slots'[index]? = some slot' ∧ rel slot slot') ∨
      slots[index]? = none ∧ (slots'[index]? = none ∨ slots'[index]? = some .absent) := by
  induction hslots generalizing index with
  | absent count =>
      refine .inr ⟨rfl, ?_⟩
      rw [List.getElem?_replicate]
      split
      · exact .inr rfl
      · exact .inl rfl
  | cons hslot _ ih =>
      cases index with
      | zero => exact .inl ⟨_, _, rfl, rfl, hslot⟩
      | succ index => simpa using ih index

end Extend

end Slot

/-! ## Nodes -/

namespace Node

variable {node node' : Node}

theorem MayRespell.kind_eq (hnode : node.MayRespell node') : node.kind = node'.kind := by
  cases hnode with
  | refl => rfl
  | single hnode =>
      cases hnode with
      | wrap hkind first text wrapper rest => rfl
      | pad hknown slots => rfl
      | inside hknown hslot front back => rfl

theorem Respells.isKnown (hnode : node.Respells node') : node.kind.isKnown = true := by
  cases hnode with
  | wrap hkind first text wrapper rest => rcases hkind with rfl | rfl <;> rfl
  | pad hknown slots => exact hknown
  | inside hknown hslot front back => exact hknown

theorem MayRespell.eq_of_unknown
    (hnode : node.MayRespell node') (hunknown : node.kind.isKnown = false) : node' = node := by
  cases hnode with
  | refl => rfl
  | single hnode =>
      rw [hnode.isKnown] at hunknown
      cases hunknown

theorem MayRespell.eq_of_leaf {kind : Kind} {text : String}
    (hnode : (leaf kind text).MayRespell node') : node' = leaf kind text := by
  cases hnode with
  | refl => rfl
  | single hnode => cases hnode

theorem MayRespell.exists_slots
    {kind : Kind} {slots : List Slot} (hnode : (branch kind slots).MayRespell node') :
    ∃ slots', node' = branch kind slots' := by
  cases hnode with
  | refl => exact ⟨_, rfl⟩
  | single hnode =>
      cases hnode with
      | wrap hkind first text wrapper rest => exact ⟨_, rfl⟩
      | pad hknown slots => exact ⟨_, rfl⟩
      | inside hknown hslot front back => exact ⟨_, rfl⟩

/-- The slots correspond one by one, and more absent ones may follow. -/
theorem MayRespell.slots_extend
    {rel : Slot → Slot → Prop} (hnode : node.MayRespell node')
    (hsame : ∀ slot slot', slot.MayRespell slot' → rel slot slot')
    (hwrap : node.kind = .parser .binary ∨ node.kind = .parser .call →
      ∀ text wrapper, rel (.token text) (.node (.leaf wrapper text))) :
    Slot.Extend rel node.slots node'.slots := by
  cases hnode with
  | refl => exact .of_forall₂ ((Slot.forall₂_mayRespell_self node.slots).imp hsame)
  | single hnode =>
      cases hnode with
      | wrap hkind first text wrapper rest =>
          have hrest := Slot.Extend.of_forall₂ ((Slot.forall₂_mayRespell_self rest).imp hsame)
          exact .cons (hsame first first .refl) (.cons (hwrap hkind text wrapper) hrest)
      | pad hknown slots => exact .concat_absent (fun slot => hsame slot slot .refl) slots
      | inside hknown hslot front back =>
          have hslots := Slot.forall₂_mayRespell_middle (.single hslot) front back
          exact .of_forall₂ (hslots.imp hsame)

theorem MayRespell.slots
    (hnode : node.MayRespell node') : Slot.Extend Slot.StandsFor node.slots node'.slots :=
  hnode.slots_extend (fun _ _ => .spelled) fun _ => .wrapped

theorem MayRespell.slots_of_plain
    (hnode : node.MayRespell node')
    (hplain : ¬(node.kind = .parser .binary ∨ node.kind = .parser .call)) :
    Slot.Extend Slot.MayRespell node.slots node'.slots :=
  hnode.slots_extend (fun _ _ => id) fun hkind => absurd hkind hplain

/-! ## Lookups -/

/-- What two lookups come to: slots of which one stands for the other, faults, or a fault
where the other node has an absent slot more. -/
inductive LookupsAgree : Except LookupFault Slot → Except LookupFault Slot → Prop where
  | found {slot slot' : Slot} (hslot : slot.StandsFor slot') : LookupsAgree (.ok slot) (.ok slot')
  | failed (fault fault' : LookupFault) : LookupsAgree (.error fault) (.error fault')
  | padded (fault : LookupFault) : LookupsAgree (.error fault) (.ok .absent)

theorem MayRespell.slotAt
    (hnode : node.MayRespell node') (index : Nat) (rest : List Nat) :
    LookupsAgree (node.slotAt (index :: rest)) (node'.slotAt (index :: rest)) := by
  cases node with
  | leaf kind text =>
      rw [hnode.eq_of_leaf]
      exact .failed _ _
  | branch kind slots =>
      have hslots := hnode.slots
      obtain ⟨slots', rfl⟩ := hnode.exists_slots
      rw [Node.slotAt, Node.slotAt, Slot.follow, Slot.follow]
      rcases hslots.getElem? index with
        ⟨slot, slot', hsome, hsome', hslot⟩ | ⟨hnone, hnone' | habsent⟩
      · rw [slots_branch] at hsome hsome'
        rw [hsome, hsome']
        dsimp only
        cases hslot with
        | spelled hslot =>
            rcases (hslot.follow rest).eq_or with
              ⟨obstacle, hfault, hfault'⟩ | ⟨_, _, hok, hok', hfound⟩
            · rw [hfault, hfault']
              exact .failed _ _
            · rw [hok, hok']
              exact .found (.spelled hfound)
        | wrapped text wrapper =>
            -- Neither a token nor a node is entered by a slot path.
            cases rest with
            | nil => exact .found (.wrapped text wrapper)
            | cons next rest => exact .failed _ _
      · rw [slots_branch] at hnone hnone'
        rw [hnone, hnone']
        exact .failed _ _
      · rw [slots_branch] at hnone habsent
        rw [hnone, habsent]
        cases rest with
        | nil => exact .padded _
        | cons next rest => exact .failed _ _

theorem MayRespell.exists_slotAt
    {index : Nat} {rest : List Nat} {slot : Slot} (hnode : node.MayRespell node')
    (hslot : node.slotAt (index :: rest) = .ok slot) :
    ∃ slot', node'.slotAt (index :: rest) = .ok slot' ∧ slot.StandsFor slot' := by
  have hagree := hnode.slotAt index rest
  rw [hslot] at hagree
  generalize node'.slotAt (index :: rest) = found at hagree
  cases hagree with
  | found hstands => exact ⟨_, rfl, hstands⟩

/-- A child is found in both. -/
theorem MayRespell.childAt
    {child : Node} {path : List Nat} (hnode : node.MayRespell node')
    (hchild : node.childAt path = .ok child) :
    ∃ child', node'.childAt path = .ok child' ∧ child.MayRespell child' := by
  rw [childAt_eq_ok_iff] at hchild
  cases path with
  | nil => cases slotAt_nil_eq_ok hchild
  | cons index rest =>
      obtain ⟨slot', hslot', hstands⟩ := hnode.exists_slotAt hchild
      -- A wrapped token is a child of the second node only.
      cases hstands with
      | spelled hslot =>
          cases hslot.holdSame with
          | node hchild => exact ⟨_, childAt_eq_ok_iff.2 hslot', hchild⟩

/-- A list is found in both. -/
theorem MayRespell.listAt
    {items : List Slot} {path : List Nat} (hnode : node.MayRespell node')
    (hitems : node.listAt path = .ok items) :
    ∃ items', node'.listAt path = .ok items' ∧ Slot.Extend Slot.StandsFor items items' := by
  rw [listAt_eq_ok_iff] at hitems
  cases path with
  | nil =>
      have hslots := hnode.slots
      cases slotAt_nil_eq_ok hitems
      cases node with
      | leaf kind text => cases hitems
      | branch kind slots =>
          obtain ⟨slots', rfl⟩ := hnode.exists_slots
          exact ⟨slots', rfl, hslots⟩
  | cons index rest =>
      obtain ⟨slot', hslot', hstands⟩ := hnode.exists_slotAt hitems
      cases hstands with
      | spelled hslot =>
          cases hslot.holdSame with
          | list hitems =>
              exact ⟨_, listAt_eq_ok_iff.2 hslot',
                .of_forall₂ (hitems.imp fun _ _ => .spelled)⟩

/-- A token is found in both, be it wrapped or not. -/
theorem MayRespell.tokenAt
    {text : String} {path : List Nat} (hnode : node.MayRespell node')
    (htoken : node.tokenAt path = .ok text) : node'.tokenAt path = .ok text := by
  cases path with
  | nil =>
      rcases tokenAt_eq_ok htoken with hslot | ⟨kind, hslot⟩
      · cases slotAt_nil_eq_ok hslot
      · cases slotAt_nil_eq_ok hslot
  | cons index rest =>
      rw [Node.tokenAt]
      rcases tokenAt_eq_ok htoken with hslot | ⟨kind, hslot⟩
      · obtain ⟨slot', hslot', hstands⟩ := hnode.exists_slotAt hslot
        rw [hslot']
        cases hstands with
        | spelled hslot =>
            cases hslot.holdSame with
            | token text => rfl
        | wrapped text wrapper => rfl
      · obtain ⟨slot', hslot', hstands⟩ := hnode.exists_slotAt hslot
        rw [hslot']
        cases hstands with
        | spelled hslot =>
            cases hslot.holdSame with
            | node hchild =>
                rw [hchild.eq_of_leaf]
                rfl

theorem MayRespell.has_eq
    (hnode : node.MayRespell node') (index : Nat) (rest : List Nat) :
    node.has (index :: rest) = node'.has (index :: rest) := by
  have hagree := hnode.slotAt index rest
  unfold has
  generalize node.slotAt (index :: rest) = found, node'.slotAt (index :: rest) = found' at hagree ⊢
  cases hagree with
  | failed fault fault' => rfl
  | padded fault => rfl
  | found hstands =>
      cases hstands with
      | wrapped text wrapper => rfl
      | spelled hslot => cases hslot.holdSame <;> rfl

theorem MayRespell.listLength_eq
    (hnode : node.MayRespell node') (index : Nat) (rest : List Nat) :
    node.listLength (index :: rest) = node'.listLength (index :: rest) := by
  have hagree := hnode.slotAt index rest
  unfold listLength
  generalize node.slotAt (index :: rest) = found, node'.slotAt (index :: rest) = found' at hagree ⊢
  cases hagree with
  | failed fault fault' => rfl
  | padded fault => rfl
  | found hstands =>
      cases hstands with
      | wrapped text wrapper => rfl
      | spelled hslot =>
          cases hslot.holdSame with
          | list hitems => exact hitems.length_eq
          | _ => rfl

end Node

end TreeFormat
