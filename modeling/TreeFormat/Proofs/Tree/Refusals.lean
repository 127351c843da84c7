import TreeFormat.Tree.Cursor

/-!
# Lookups that fail

A failed lookup names the kind of the node and the slot path that was asked for
(`Node.slotAt_error`), whatever was expected there.  So the fault alone tells what to
ask a cursor on the node to see it fail once more (`Node.Refuses.reproduces`).
-/

namespace TreeFormat

/-- A fault is about a slot path.  A leaf has no slots at all, and its fault names none. -/
def LookupFault.IsAt (path : List Nat) : LookupFault → Prop
  | literalBody _ => True
  | missing _ found => found = path
  | shape _ found _ => found = path

namespace Node

/-- A node does not have what a rule asks for: a token, a child or a list at a slot path,
or the text of a leaf. -/
inductive Refuses (node : Node) : LookupFault → Prop where
  | token {path : List Nat} {reason : LookupFault}
      (hlookup : node.tokenAt path = .error reason) : Refuses node reason
  | child {path : List Nat} {reason : LookupFault}
      (hlookup : node.childAt path = .error reason) : Refuses node reason
  | list {path : List Nat} {reason : LookupFault}
      (hlookup : node.listAt path = .error reason) : Refuses node reason
  | literal {event : ScannerEvent} {reason : LookupFault}
      (hkind : node.kind = .scanner event) (hbranch : node.literal? = none)
      (hreason : reason = .shape node.kind [] .literal) : Refuses node reason

variable {node : Node} {path : List Nat} {reason : LookupFault}

theorem slotAt_error (hlookup : node.slotAt path = .error reason) :
    reason.kind = node.kind ∧ reason.IsAt path := by
  cases node with
  | leaf kind text =>
      cases hlookup
      exact ⟨rfl, trivial⟩
  | branch kind slots =>
      rw [slotAt] at hlookup
      cases hfollow : (Slot.list slots).follow path with
      | ok slot =>
          rw [hfollow] at hlookup
          cases hlookup
      | error obstacle =>
          rw [hfollow] at hlookup
          cases hlookup
          cases obstacle <;> exact ⟨rfl, rfl⟩

/-- A lookup looks at the slot first and then at what it holds. -/
theorem lookup_error
    {α : Type} (expected : Expected) {read : Slot → Except LookupFault α}
    (hread : ∀ slot reason, read slot = .error reason → reason = .shape node.kind path expected)
    (hlookup : (node.slotAt path >>= read) = .error reason) :
    reason.kind = node.kind ∧ reason.IsAt path := by
  cases hslot : node.slotAt path with
  | error fault =>
      rw [hslot] at hlookup
      cases hlookup
      exact slotAt_error hslot
  | ok slot =>
      rw [hslot] at hlookup
      rw [hread slot reason hlookup]
      exact ⟨rfl, rfl⟩

theorem tokenAt_error (hlookup : node.tokenAt path = .error reason) :
    reason.kind = node.kind ∧ reason.IsAt path := by
  refine lookup_error .token ?_ hlookup
  intro slot reason hread
  split at hread <;> cases hread
  rfl

theorem childAt_error (hlookup : node.childAt path = .error reason) :
    reason.kind = node.kind ∧ reason.IsAt path := by
  refine lookup_error .node ?_ hlookup
  intro slot reason hread
  split at hread <;> cases hread
  rfl

theorem listAt_error (hlookup : node.listAt path = .error reason) :
    reason.kind = node.kind ∧ reason.IsAt path := by
  refine lookup_error .list ?_ hlookup
  intro slot reason hread
  split at hread <;> cases hread
  rfl

theorem Refuses.kind_eq (hrefuses : node.Refuses reason) : reason.kind = node.kind := by
  cases hrefuses with
  | token hlookup => exact (tokenAt_error hlookup).1
  | child hlookup => exact (childAt_error hlookup).1
  | list hlookup => exact (listAt_error hlookup).1
  | literal _ _ hreason => rw [hreason]; rfl

end Node

/-! ## Walks that stop at once -/

/-- A fault comes up again at a cursor, in a lookup at the slot path that it is about.
A visit that stops for it never starts its action. -/
inductive Cursor.Reproduces (cursor : Cursor) (reason : LookupFault) : Prop where
  | token {path : List Nat} (hpath : reason.IsAt path)
      (hlookup : cursor.node.tokenAt path = .error reason)
  | call {path : List Nat} (hpath : reason.IsAt path)
      (hrun : ∀ (σ α : Type) (act : Walk σ LookupFault α) (state : σ),
        (Walk.call path act).run (cursor, state) = (.error reason, cursor, state))
  | each {path : List Nat} (hpath : reason.IsAt path)
      (hrun : ∀ (σ α : Type) (act : Walk σ LookupFault α) (state : σ),
        (Walk.each path act).run (cursor, state) = (.error reason, cursor, state))
  | literal {event : ScannerEvent} (hkind : cursor.node.kind = .scanner event)
      (hbranch : cursor.node.literal? = none)
      (hreason : reason = .shape cursor.node.kind [] .literal)

theorem Node.Refuses.reproduces
    {cursor : Cursor} {reason : LookupFault} (hrefuses : cursor.node.Refuses reason) :
    cursor.Reproduces reason := by
  cases hrefuses with
  | token hlookup => exact .token (Node.tokenAt_error hlookup).2 hlookup
  | @child path _ hlookup =>
      refine .call (Node.childAt_error hlookup).2 ?_
      intro σ α act state
      have hrun : (Walk.call path act).run (cursor, state) =
          (Walk.ofLookup (cursor.node.childAt path) >>= fun child =>
            Walk.descend child path act : Walk σ LookupFault α).run (cursor, state) := rfl
      rw [hrun, hlookup]
      rfl
  | @list path _ hlookup =>
      refine .each (Node.listAt_error hlookup).2 ?_
      intro σ α act state
      have hrun : (Walk.each path act).run (cursor, state) =
          (Walk.ofLookup (cursor.node.listAt path) >>= fun items =>
            Walk.eachFrom path act 0 items : Walk σ LookupFault (List α)).run
              (cursor, state) := rfl
      rw [hrun, hlookup]
      rfl
  | literal hkind hbranch hreason => exact .literal hkind hbranch hreason

end TreeFormat
