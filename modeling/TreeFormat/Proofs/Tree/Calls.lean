import Mathlib.Data.List.Basic
import TreeFormat.Proofs.Tree.Lookups
import TreeFormat.Proofs.Tree.Returns

/-!
# The visit of a list as single visits

A visit of a list looks the list up once and then goes through the elements by itself.  It
comes to the same as single visits of the elements in order, with those left out that are
absent (`Walk.each_eq_calls`).  The values are the same, and so are the effects on the state
and the error, whether the visitor stops or something that is no child is in the way.

A single visit looks its slot path up anew.  For it to find the same element, the visits
before it must have left the cursor where it was.  All visitors that are composed of what a
cursor offers do so (`Walk.Composed.returns`).
-/

namespace TreeFormat

namespace Slot

/-- Whether nothing stands in a slot. -/
def isAbsent : Slot → Bool
  | absent => true
  | _ => false

/-- The indices of the elements of a list that are not absent, counted from an index. -/
def placesFrom (index : Nat) (items : List Slot) : List Nat :=
  items.findIdxs (fun item => !item.isAbsent) index

theorem placesFrom_absent (index : Nat) (items : List Slot) :
    placesFrom index (absent :: items) = placesFrom (index + 1) items := by
  rw [placesFrom, List.findIdxs_cons]
  rfl

theorem placesFrom_cons
    {item : Slot} (hitem : item.isAbsent = false) (index : Nat) (items : List Slot) :
    placesFrom index (item :: items) = index :: placesFrom (index + 1) items := by
  rw [placesFrom, List.findIdxs_cons, hitem]
  rfl

end Slot

/-- A slot that holds no child is refused where a child is asked for. -/
theorem Node.childAt_eq_error
    {node : Node} {path : List Nat} {slot : Slot} (hslot : node.slotAt path = .ok slot)
    (hchild : slot.child? = none) : node.childAt path = .error (.shape node.kind path .node) := by
  unfold childAt
  rw [hslot]
  cases slot with
  | node child => cases hchild
  | absent => rfl
  | token text => rfl
  | list items => rfl

namespace Walk

variable {σ ε α β : Type}

/-- Walks that start alike and go on alike are alike. -/
theorem run_bind_congr
    {first first' : Walk σ ε α} {next next' : α → Walk σ ε β} {start : Cursor × σ}
    (hfirst : first.run start = first'.run start)
    (hnext : ∀ value after, first.run start = (.ok value, after) →
      (next value).run after = (next' value).run after) :
    (first >>= next).run start = (first' >>= next').run start := by
  rw [run_bind, run_bind, ← hfirst]
  cases hrun : first.run start with
  | mk result after =>
      cases result with
      | ok value => exact hnext value after hrun
      | error fault => rfl

variable [OfLookupFault ε] {act : Walk σ ε α} {cursor : Cursor} {path : List Nat}

theorem run_call (act : Walk σ ε α) (path : List Nat) (cursor : Cursor) (state : σ) :
    (Walk.call path act).run (cursor, state) =
      (Walk.ofLookup (cursor.node.childAt path) >>= fun child =>
        Walk.descend child path act : Walk σ ε α).run (cursor, state) := rfl

theorem run_call_of_child
    {child : Node} (hslot : cursor.node.slotAt path = .ok (.node child)) (state : σ) :
    (Walk.call path act).run (cursor, state) =
      (Walk.descend child path act).run (cursor, state) := by
  rw [run_call, Node.childAt_eq_ok_iff.2 hslot]
  rfl

theorem run_call_of_no_child
    {slot : Slot} (hslot : cursor.node.slotAt path = .ok slot) (hchild : slot.child? = none)
    (state : σ) :
    (Walk.call path act).run (cursor, state) =
      (Walk.fail (.shape cursor.node.kind path .node) : Walk σ ε α).run (cursor, state) := by
  rw [run_call, Node.childAt_eq_error hslot hchild]
  rfl

/-- The visit of a list goes from element to element as single visits do: it passes over what
is absent, visits a child, and stops at anything else. -/
theorem run_eachFrom
    (hact : act.Returns) {index : Nat} {items : List Slot}
    (hitems : ∀ offset item, items[offset]? = some item →
      cursor.node.slotAt (path ++ [index + offset]) = .ok item) (state : σ) :
    (Walk.eachFrom path act index items).run (cursor, state) =
      ((Slot.placesFrom index items).mapM fun place =>
        Walk.call (path ++ [place]) act).run (cursor, state) := by
  induction items generalizing index state with
  | nil => rfl
  | cons item items ih =>
      have hitem : cursor.node.slotAt (path ++ [index]) = .ok item := hitems 0 item rfl
      have hbehind : ∀ offset item, items[offset]? = some item →
          cursor.node.slotAt (path ++ [index + 1 + offset]) = .ok item := by
        intro offset found hfound
        have hslot := hitems (offset + 1) found hfound
        rwa [Nat.add_comm offset, ← Nat.add_assoc] at hslot
      cases item with
      | absent =>
          rw [Slot.placesFrom_absent]
          exact ih hbehind state
      | node child =>
          rw [Slot.placesFrom_cons rfl, List.mapM_cons]
          refine run_bind_congr (run_call_of_child hitem state).symm ?_
          intro value after hrun
          -- The visit of the child came back, so the rest starts at the same cursor.
          have hback := hact.descend child (path ++ [index]) cursor state
          rw [hrun] at hback
          obtain ⟨moved, state'⟩ := after
          cases hback
          exact run_bind_congr (ih hbehind state') fun _ _ _ => rfl
      | token text =>
          rw [Slot.placesFrom_cons rfl, List.mapM_cons, run_bind, run_call_of_no_child hitem rfl]
          rfl
      | list inner =>
          rw [Slot.placesFrom_cons rfl, List.mapM_cons, run_bind, run_call_of_no_child hitem rfl]
          rfl

/-- A visit of every child in a list is the sequence of the visits of its elements that are not
absent. -/
theorem each_eq_calls
    (hact : act.Returns) {items : List Slot}
    (hlist : cursor.node.slotAt path = .ok (.list items)) (state : σ) :
    (Walk.each path act).run (cursor, state) =
      ((Slot.placesFrom 0 items).mapM fun index =>
        Walk.call (path ++ [index]) act).run (cursor, state) := by
  have hitems : ∀ offset item, items[offset]? = some item →
      cursor.node.slotAt (path ++ [0 + offset]) = .ok item := by
    intro offset item hitem
    rw [Nat.zero_add, Node.slotAt_concat_eq_ok_iff]
    exact ⟨items, hlist, hitem⟩
  have hrun : (Walk.each path act).run (cursor, state) =
      (Walk.ofLookup (cursor.node.listAt path) >>= fun items =>
        Walk.eachFrom path act 0 items : Walk σ ε (List α)).run (cursor, state) := rfl
  rw [hrun, Node.listAt_eq_ok_iff.2 hlist]
  exact run_eachFrom hact hitems state

/-- A list with a name, an absent element, a raw token and a name behind it.  The visitor counts
the visits and tells where it is.  It comes to two children, and then the token stops both
sequences. -/
theorem each_eq_calls_token :
    let name (text : String) : Node := .leaf (.scanner .ident) text
    let root : Node := .branch (.parser .program)
      [.list [.node (name "a"), .absent, .node (name "b"), .token ";", .node (name "c")]]
    let visitor : Walk Nat LookupFault (List Nat) := do
      Walk.update (· + 1)
      return (← Walk.cursor).trail
    let cursor := Cursor.ofRoot root
    let calls (places : List Nat) : Walk Nat LookupFault (List (List Nat)) :=
      places.mapM fun index => Walk.call ([0] ++ [index]) visitor
    visitor.Returns ∧ cursor.node.slotAt [0] = .ok (.list
        [.node (name "a"), .absent, .node (name "b"), .token ";", .node (name "c")]) ∧
      (calls [0, 2]).run (cursor, 0) = (.ok [[0, 0], [0, 2]], cursor, 2) ∧
      (Walk.each [0] visitor).run (cursor, 0) = (calls [0, 2, 3, 4]).run (cursor, 0) ∧
      (Walk.each [0] visitor).run (cursor, 0) =
        (.error (.shape (.parser .program) [0, 3] .node), cursor, 2) := by
  intro name root visitor cursor calls
  have hvisitor : visitor.Returns :=
    (Composed.bind (.update (· + 1)) fun _ => .bind .cursor fun cursor =>
      .pure cursor.trail).returns
  have hlist : cursor.node.slotAt [0] = .ok (.list
      [.node (name "a"), .absent, .node (name "b"), .token ";", .node (name "c")]) := rfl
  exact ⟨hvisitor, hlist, rfl, each_eq_calls hvisitor hlist 0, rfl⟩

end Walk

end TreeFormat
