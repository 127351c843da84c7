import TreeFormat.Proofs.Tree.Lookups
import TreeFormat.Proofs.Tree.Refusals

/-!
# Slot paths, one index after the other

A lookup follows its slot path from left to right.  What stands at a slot path settles every
lookup further down: a list is entered at the next index, anything else is no list, and a
lookup that failed fails again (`Node.slotAt_stepwise`).  The fault always tells of the whole
slot path that was asked for, and not of the part where the way ended.
-/

namespace TreeFormat

/-- The same failure of a lookup, at another slot path. -/
def LookupFault.at (path : List Nat) : LookupFault → LookupFault
  | literalBody kind => literalBody kind
  | missing kind _ => missing kind path
  | shape kind _ expected => shape kind path expected

theorem Obstacle.fault_at (kind : Kind) (path path' : List Nat) (obstacle : Obstacle) :
    (obstacle.fault kind path).at path' = obstacle.fault kind path' := by
  cases obstacle with
  | gap => rfl
  | notList => rfl

namespace Slot

theorem follow_nil (slot : Slot) : slot.follow [] = .ok slot := by
  cases slot <;> rfl

/-- A slot path goes on from where its first part leads. -/
theorem follow_append (slot : Slot) (path rest : List Nat) :
    slot.follow (path ++ rest) = slot.follow path >>= fun found => found.follow rest := by
  induction path generalizing slot with
  | nil =>
      rw [follow_nil]
      rfl
  | cons index path ih =>
      cases slot with
      | list items =>
          rw [List.cons_append, follow, follow]
          cases items[index]? with
          | none => rfl
          | some next => exact ih next
      | absent => rfl
      | token text => rfl
      | node child => rfl

/-- There is no way on through a slot that holds no list. -/
theorem follow_of_ne_list
    {slot : Slot} (hslot : ∀ items, slot ≠ .list items) (index : Nat) (rest : List Nat) :
    slot.follow (index :: rest) = .error .notList := by
  cases slot with
  | list items => exact absurd rfl (hslot items)
  | absent => rfl
  | token text => rfl
  | node child => rfl

end Slot

namespace Node

/-- A lookup goes on from what stands at the first part of its slot path, and it fails where
the lookup of that part fails. -/
theorem slotAt_append (kind : Kind) (slots : List Slot) (path rest : List Nat) :
    (branch kind slots).slotAt (path ++ rest) =
      match (branch kind slots).slotAt path with
      | .ok found => (found.follow rest).mapError (Obstacle.fault kind (path ++ rest))
      | .error fault => .error (fault.at (path ++ rest)) := by
  rw [slotAt, slotAt, Slot.follow_append]
  cases (Slot.list slots).follow path with
  | ok found => rfl
  | error obstacle => exact congrArg Except.error (obstacle.fault_at kind path _).symm

theorem slotAt_nil (kind : Kind) (slots : List Slot) :
    (branch kind slots).slotAt [] = .ok (.list slots) := by
  rw [slotAt, Slot.follow_nil]
  rfl

variable {node : Node} {path : List Nat}

/-- A list is entered at the next index, if it is long enough. -/
theorem slotAt_of_list
    {items : List Slot} (hlist : node.slotAt path = .ok (.list items)) (index : Nat) :
    node.slotAt (path ++ [index]) =
      items[index]?.elim (.error (.missing node.kind (path ++ [index]))) .ok := by
  cases node with
  | leaf kind text => cases hlist
  | branch kind slots =>
      rw [slotAt_append, hlist]
      dsimp only
      rw [Slot.follow]
      cases items[index]? with
      | none => rfl
      | some slot =>
          dsimp only
          rw [Slot.follow_nil]
          rfl

theorem slotAt_of_ne_list
    {slot : Slot} (hslot : node.slotAt path = .ok slot) (hother : ∀ items, slot ≠ .list items)
    (index : Nat) (rest : List Nat) :
    node.slotAt (path ++ index :: rest) =
      .error (.shape node.kind (path ++ index :: rest) .list) := by
  cases node with
  | leaf kind text => cases hslot
  | branch kind slots =>
      rw [slotAt_append, hslot]
      dsimp only
      rw [Slot.follow_of_ne_list hother]
      rfl

theorem slotAt_of_error
    {fault : LookupFault} (hfault : node.slotAt path = .error fault) (rest : List Nat) :
    node.slotAt (path ++ rest) = .error (fault.at (path ++ rest)) := by
  cases node with
  | leaf kind text =>
      cases hfault
      rfl
  | branch kind slots => rw [slotAt_append, hfault]

/-- Something stands further down only if the way there leads through a list. -/
theorem exists_list_of_has
    {index : Nat} {rest : List Nat} (hhas : node.has (path ++ index :: rest) = true) :
    ∃ items, node.slotAt path = .ok (.list items) := by
  cases hfound : node.slotAt path with
  | error fault =>
      rw [has, slotAt_of_error hfound] at hhas
      cases hhas
  | ok slot =>
      by_cases hlist : ∃ items, slot = .list items
      · obtain ⟨items, rfl⟩ := hlist
        exact ⟨items, rfl⟩
      · rw [has, slotAt_of_ne_list hfound fun items hslot => hlist ⟨items, hslot⟩] at hhas
        cases hhas

/-- Lookups at a node go step by step.  The empty slot path stands for all slots.  Behind a list
comes one of its elements or nothing, behind anything else no list, and behind a failure the
same failure.  A fault carries the kind of the node and the slot path that was asked for.  A leaf
refuses every slot path.  So something that is there is there in a list. -/
theorem slotAt_stepwise (node : Node) (path : List Nat) (index : Nat) (rest : List Nat) :
    (node.literal? = none → node.slotAt [] = .ok (.list node.slots)) ∧
      (∀ items, node.slotAt path = .ok (.list items) →
        node.slotAt (path ++ [index]) =
          items[index]?.elim (.error (.missing node.kind (path ++ [index]))) .ok) ∧
      (∀ slot, node.slotAt path = .ok slot → (∀ items, slot ≠ .list items) →
        node.slotAt (path ++ index :: rest) =
          .error (.shape node.kind (path ++ index :: rest) .list)) ∧
      (∀ fault, node.slotAt path = .error fault →
        node.slotAt (path ++ index :: rest) = .error (fault.at (path ++ index :: rest)) ∧
          fault.kind = node.kind ∧ fault.IsAt path) ∧
      (∀ text, node.literal? = some text → node.slotAt path = .error (.literalBody node.kind)) ∧
      (node.has (path ++ index :: rest) = true →
        ∃ items, node.slotAt path = .ok (.list items)) := by
  refine ⟨?_, fun items hlist => slotAt_of_list hlist index, ?_, ?_, ?_, exists_list_of_has⟩
  · intro hbranch
    cases node with
    | leaf kind text => cases hbranch
    | branch kind slots => exact slotAt_nil kind slots
  · intro slot hslot hother
    exact slotAt_of_ne_list hslot hother index rest
  · intro fault hfault
    exact ⟨slotAt_of_error hfault (index :: rest), slotAt_error hfault⟩
  · intro text hleaf
    cases node with
    | leaf kind text => rfl
    | branch kind slots => cases hleaf

/-- A parameter with a default stands in a list inside a list.  The lookups go past the end of
the inner list, into a name, into a slot that is absent, and behind a failure. -/
theorem slotAt_stepwise_params :
    let name : Node := .leaf (.scanner .ident) "b"
    let default : Node := .leaf (.scanner .int) "1"
    let params : Node := .branch (.parser .params)
      [.absent, .list [.list [.node name, .node default]]]
    params.slotAt [] = .ok (.list params.slots) ∧
      params.slotAt [1, 0, 1] = .ok (.node default) ∧
      params.slotAt [1, 0, 2] = .error (.missing params.kind [1, 0, 2]) ∧
      params.slotAt [1, 0, 1, 4] = .error (.shape params.kind [1, 0, 1, 4] .list) ∧
      params.slotAt [0, 3, 5] = .error (.shape params.kind [0, 3, 5] .list) ∧
      params.slotAt [2, 7, 1] = .error (.missing params.kind [2, 7, 1]) ∧
      name.slotAt [3] = .error (.literalBody name.kind) ∧
      ∃ items, params.slotAt [1] = .ok (.list items) := by
  intro name default params
  have hlist : ∀ path items, params.slotAt path = .ok (.list items) → ∀ index,
      params.slotAt (path ++ [index]) =
        items[index]?.elim (.error (.missing params.kind (path ++ [index]))) .ok :=
    fun path items hitems index => (slotAt_stepwise params path index []).2.1 items hitems
  have hother : ∀ path slot, params.slotAt path = .ok slot → (∀ items, slot ≠ .list items) →
      ∀ index rest, params.slotAt (path ++ index :: rest) =
        .error (.shape params.kind (path ++ index :: rest) .list) :=
    fun path slot hslot hne index rest =>
      (slotAt_stepwise params path index rest).2.2.1 slot hslot hne
  refine ⟨(slotAt_stepwise params [] 0 []).1 rfl, hlist [1, 0] _ rfl 1, hlist [1, 0] _ rfl 2,
    hother [1, 0, 1] _ rfl ?_ 4 [], hother [0] _ rfl ?_ 3 [5], ?_, ?_, ?_⟩
  · rintro items ⟨⟩
  · rintro items ⟨⟩
  · exact ((slotAt_stepwise params [2] 7 [1]).2.2.2.1 _ rfl).1
  · exact (slotAt_stepwise name [3] 0 []).2.2.2.2.1 "b" rfl
  · exact (slotAt_stepwise params [1] 0 [1]).2.2.2.2.2 rfl

end Node

end TreeFormat
