import TreeFormat.Tree.Cursor

/-!
# Walks that succeed

What a walk promises about its value when it does not stop with an error.  A
promise about an action is put together from promises about its parts, and a visit
of a child leaves the cursor where it was.
-/

namespace TreeFormat

namespace Walk

variable {σ ε α β : Type}

/-- Partial correctness of a walk: a run on a node that ends with a value leaves the
cursor where it was, and the value is as promised. -/
def Ensures (act : Walk σ ε α) (node : Node) (promise : α → Prop) : Prop :=
  ∀ (cursor : Cursor) (state : σ) (value : α) (after : Cursor × σ),
    cursor.node = node → act.run (cursor, state) = (.ok value, after) →
      after.1 = cursor ∧ promise value

theorem run_bind
    (act : Walk σ ε α) (next : α → Walk σ ε β) (start : Cursor × σ) :
    (act >>= next).run start =
      match act.run start with
      | (.ok value, after) => (next value).run after
      | (.error fault, after) => (.error fault, after) := by
  rw [ExceptT.run_bind]
  cases hrun : act.run start with
  | mk result after =>
      cases result with
      | ok value => simp [StateT.bind, bind, hrun]
      | error fault => simp [StateT.bind, bind, hrun]; rfl

theorem run_descend
    (act : Walk σ ε α) (child : Node) (path : List Nat) (cursor : Cursor) (state : σ) :
    (descend child path act).run (cursor, state) =
      let ended := act.run (cursor.descend child path, state)
      (ended.1, ended.2.1.ascend, ended.2.2) := by
  rfl

/-- A list of slots and the values for the children in it: absent elements have none. -/
inductive Visits (outcome : Node → α → Prop) : List Slot → List α → Prop where
  | nil : Visits outcome [] []
  | node {child : Node} {items : List Slot} {value : α} {values : List α}
      (hvalue : outcome child value) (hrest : Visits outcome items values) :
      Visits outcome (.node child :: items) (value :: values)
  | absent {items : List Slot} {values : List α} (hrest : Visits outcome items values) :
      Visits outcome (.absent :: items) values

namespace Ensures

variable {focus : Node} {act : Walk σ ε α} {promise promise' : α → Prop}

theorem mono
    (hact : act.Ensures focus promise) (himp : ∀ value, promise value → promise' value) :
    act.Ensures focus promise' := by
  intro cursor state value after hfocus hrun
  obtain ⟨hcursor, hvalue⟩ := hact cursor state value after hfocus hrun
  exact ⟨hcursor, himp value hvalue⟩

theorem pure {value : α} (hvalue : promise value) :
    Ensures (Pure.pure value : Walk σ ε α) focus promise := by
  rintro cursor state _ _ - ⟨⟩
  exact ⟨rfl, hvalue⟩

theorem bind
    {next : α → Walk σ ε β} {goal : β → Prop}
    (hact : act.Ensures focus promise)
    (hnext : ∀ value, promise value → (next value).Ensures focus goal) :
    (act >>= next).Ensures focus goal := by
  intro cursor state value after hfocus hrun
  rw [run_bind] at hrun
  split at hrun
  · next middle between hact' =>
      obtain ⟨hcursor, hmiddle⟩ := hact cursor state middle between hfocus hact'
      obtain ⟨moved, state'⟩ := between
      cases hcursor
      exact hnext middle hmiddle moved state' value after hfocus hrun
  · cases hrun

theorem cursor : Ensures (Walk.cursor : Walk σ ε Cursor) focus (·.node = focus) := by
  rintro cursor state _ _ rfl ⟨⟩
  exact ⟨rfl, rfl⟩

theorem node : Ensures (Walk.node : Walk σ ε Node) focus (· = focus) := by
  rintro cursor state _ _ rfl ⟨⟩
  exact ⟨rfl, rfl⟩

theorem update (change : σ → σ) :
    Ensures (Walk.update change : Walk σ ε Unit) focus fun _ => True := by
  rintro cursor state _ _ - ⟨⟩
  exact ⟨rfl, trivial⟩

theorem descend
    {child : Node} (hact : act.Ensures child promise) (path : List Nat) :
    (Walk.descend child path act).Ensures focus promise := by
  intro cursor state value after hfocus hrun
  rw [run_descend] at hrun
  obtain ⟨hresult, rfl⟩ := Prod.mk.inj hrun
  obtain ⟨hbelow, hvalue⟩ := hact _ _ _ _ (Cursor.node_descend cursor child path)
    (Prod.ext hresult rfl)
  refine ⟨?_, hvalue⟩
  rw [hbelow, Cursor.ascend_descend]

section Faults

variable [OfLookupFault ε]

theorem fail (fault : LookupFault) :
    Ensures (Walk.fail fault : Walk σ ε α) focus promise := by
  rintro cursor state _ _ - ⟨⟩

theorem ofLookup (found : Except LookupFault α) :
    Ensures (Walk.ofLookup found : Walk σ ε α) focus fun value => found = .ok value := by
  cases found with
  | ok value => exact pure rfl
  | error fault => exact fail fault

theorem call
    {path : List Nat} {outcome : Node → α → Prop}
    (hact : ∀ child, focus.childAt path = .ok child → act.Ensures child (outcome child)) :
    (Walk.call path act).Ensures focus fun value =>
      ∃ child, focus.childAt path = .ok child ∧ outcome child value := by
  refine bind node ?_
  rintro _ rfl
  refine bind (ofLookup _) ?_
  intro child hchild
  refine (descend (hact child hchild) path).mono ?_
  intro value hvalue
  exact ⟨child, hchild, hvalue⟩

theorem eachFrom
    {path : List Nat} {outcome : Node → α → Prop} (index : Nat) {items : List Slot}
    (hact : ∀ child, .node child ∈ items → act.Ensures child (outcome child)) :
    (Walk.eachFrom path act index items).Ensures focus (Visits outcome items) := by
  induction items generalizing index with
  | nil => exact pure .nil
  | cons item items ih =>
      have hrest := fun index => ih index fun child hchild =>
        hact child (List.mem_cons_of_mem _ hchild)
      cases item with
      | absent => exact (hrest (index + 1)).mono fun _ => .absent
      | token text => exact bind node fun _ _ => fail _
      | list inner => exact bind node fun _ _ => fail _
      | node child =>
          refine bind (descend (hact child List.mem_cons_self) _) ?_
          intro value hvalue
          refine bind (hrest (index + 1)) ?_
          intro values hvalues
          exact pure (.node hvalue hvalues)

theorem each
    {path : List Nat} {outcome : Node → α → Prop}
    (hact : ∀ items child, focus.listAt path = .ok items → .node child ∈ items →
      act.Ensures child (outcome child)) :
    (Walk.each path act).Ensures focus fun values =>
      ∃ items, focus.listAt path = .ok items ∧ Visits outcome items values := by
  refine bind node ?_
  rintro _ rfl
  refine bind (ofLookup _) ?_
  intro items hitems
  refine (eachFrom 0 fun child hchild => hact items child hitems hchild).mono ?_
  intro values hvalues
  exact ⟨items, hitems, hvalues⟩

end Faults

end Ensures

end Walk

end TreeFormat
