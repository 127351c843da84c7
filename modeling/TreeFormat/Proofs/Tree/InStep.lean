import TreeFormat.Proofs.Tree.Positions
import TreeFormat.Proofs.Tree.Spellings
import TreeFormat.Proofs.Tree.Walks

/-!
# Walks in step

Two walks on two spellings of a tree go in step if the second one follows the first one to
its end: where the first one ends with a value, the second one ends with the same value and
has changed the state in the same way (`Walk.InStep`).  Nothing is asked where the first one
stops.

Visits of the child at a slot path and of the children in a list go in step if the visits of
the single children do (`Walk.InStep.call`, `Walk.InStep.each`).  Children come in pairs of
two spellings, and what has no partner is an absent slot at the end.
-/

namespace TreeFormat

/-- Two cursors tell the same about where they are. -/
structure Cursor.Abreast (cursor cursor' : Cursor) : Prop where
  sound : cursor.Sound
  sound' : cursor'.Sound
  route : cursor.route = cursor'.route
  depth : cursor.depth = cursor'.depth

namespace Cursor.Abreast

theorem ofRoot {root root' : Node} (hkind : root.kind = root'.kind) :
    (Cursor.ofRoot root).Abreast (Cursor.ofRoot root') where
  sound := sound_ofRoot root
  sound' := sound_ofRoot root'
  route := by rw [route_ofRoot, route_ofRoot, hkind]
  depth := rfl

theorem descend
    {cursor cursor' : Cursor} (habreast : cursor.Abreast cursor') {child child' : Node}
    (hkind : child.kind = child'.kind) (path : List Nat) :
    (cursor.descend child path).Abreast (cursor'.descend child' path) where
  sound := habreast.sound.descend child path
  sound' := habreast.sound'.descend child' path
  route := by
    rw [route_descend habreast.sound, route_descend habreast.sound', habreast.route, hkind]
  depth := by rw [depth_descend, depth_descend, habreast.depth]

end Cursor.Abreast

namespace Walk

variable {σ ε α β : Type} {node node' : Node} {act act' : Walk σ ε α}

/-- Two walks go in step on two nodes: if the first one ends with a value, the second one ends
with the same value and has changed the state in the same way.  Both come back. -/
def InStep (act act' : Walk σ ε α) (node node' : Node) : Prop :=
  ∀ (cursor cursor' : Cursor) (state : σ) (value : α) (after : Cursor × σ),
    cursor.Abreast cursor' → cursor.node = node → cursor'.node = node' →
      act.run (cursor, state) = (.ok value, after) →
        after.1 = cursor ∧ act'.run (cursor', state) = (.ok value, cursor', after.2)

namespace InStep

theorem pure (value : α) :
    InStep (Pure.pure value : Walk σ ε α) (Pure.pure value) node node' := by
  rintro cursor cursor' state _ _ - - - ⟨⟩
  exact ⟨rfl, rfl⟩

theorem bind
    {next next' : α → Walk σ ε β} (hact : InStep act act' node node')
    (hnext : ∀ value, InStep (next value) (next' value) node node') :
    InStep (act >>= next) (act' >>= next') node node' := by
  intro cursor cursor' state value after habreast hnode hnode' hrun
  rw [run_bind] at hrun ⊢
  cases hfirst : act.run (cursor, state) with
  | mk result between =>
      rw [hfirst] at hrun
      cases result with
      | error fault => cases hrun
      | ok middle =>
          obtain ⟨hback, hfirst'⟩ :=
            hact cursor cursor' state middle between habreast hnode hnode' hfirst
          obtain ⟨moved, state'⟩ := between
          cases hback
          rw [hfirst']
          exact hnext middle moved cursor' state' value after habreast hnode hnode' hrun

theorem map (hact : InStep act act' node node') (wrap : α → β) :
    InStep (do return wrap (← act)) (do return wrap (← act')) node node' :=
  hact.bind fun value => pure (wrap value)

theorem atNode
    {next next' : Node → Walk σ ε α} (hnext : InStep (next node) (next' node') node node') :
    InStep (Walk.node >>= next) (Walk.node >>= next') node node' := by
  rintro cursor cursor' state value after habreast rfl rfl hrun
  exact hnext cursor cursor' state value after habreast rfl rfl hrun

theorem descend
    {child child' : Node} (hkind : child.kind = child'.kind) (hact : InStep act act' child child')
    (path : List Nat) :
    InStep (Walk.descend child path act) (Walk.descend child' path act') node node' := by
  intro cursor cursor' state value after habreast _ _ hrun
  rw [run_descend] at hrun ⊢
  obtain ⟨hresult, rfl⟩ := Prod.mk.inj hrun
  obtain ⟨hback, hrun'⟩ := hact _ _ state value _ (habreast.descend hkind path) rfl rfl
    (Prod.ext hresult rfl)
  dsimp only
  rw [hback, hrun', Cursor.ascend_descend, Cursor.ascend_descend]
  exact ⟨rfl, rfl⟩

section Faults

variable [OfLookupFault ε]

/-- A walk that stops asks nothing of the other one. -/
theorem fail (fault : LookupFault) (act' : Walk σ ε α) :
    InStep (Walk.fail fault) act' node node' := by
  rintro cursor cursor' state value after - - - ⟨⟩

theorem ofLookup
    {found found' : Except LookupFault α}
    (hfound : ∀ value, found = .ok value → found' = .ok value) :
    InStep (Walk.ofLookup found : Walk σ ε α) (Walk.ofLookup found') node node' := by
  cases found with
  | error fault => exact fail fault _
  | ok value =>
      rw [hfound value rfl]
      exact pure value

theorem eachFrom_absent (path : List Nat) (act : Walk σ ε α) (index count : Nat) :
    Walk.eachFrom path act index (List.replicate count .absent) = Pure.pure [] := by
  induction count generalizing index with
  | zero => rfl
  | succ count ih => exact ih (index + 1)

/-- Two spellings of a list are visited in step, if their children are. -/
theorem eachFrom
    {path : List Nat} {items items' : List Slot}
    (hitems : Slot.Extend Slot.StandsFor items items')
    (hact : ∀ child child', .node child ∈ items → .node child' ∈ items' →
      child.MayRespell child' → InStep act act' child child') (index : Nat) :
    InStep (Walk.eachFrom path act index items) (Walk.eachFrom path act' index items')
      node node' := by
  induction hitems generalizing index with
  | absent count =>
      -- Only the second list goes on, and nothing is left in it to visit.
      rw [eachFrom_absent]
      exact pure []
  | @cons item item' items items' hitem _ ih =>
      have hrest := ih
        (fun child child' hchild hchild' =>
          hact child child' (List.mem_cons_of_mem _ hchild) (List.mem_cons_of_mem _ hchild'))
        (index + 1)
      -- The first walk stops at an element that is neither a child nor absent.
      have hstop : ∀ rest : Walk σ ε (List α), InStep (do
          Walk.fail (.shape (← Walk.node).kind (path ++ [index]) .node)) rest node node' := by
        rintro rest cursor cursor' state value after - - - ⟨⟩
      cases hitem with
      | wrapped text wrapper => exact hstop _
      | spelled hitem =>
          cases hitem.holdSame with
          | absent => exact hrest
          | token text => exact hstop _
          | list hinner => exact hstop _
          | node hchild =>
              have hfirst := hact _ _ List.mem_cons_self List.mem_cons_self hchild
              exact (descend hchild.kind_eq hfirst _).bind fun first => hrest.map (first :: ·)

section Children

variable (hnode : node.MayRespell node')
  (hact : ∀ child child', child.MayRespell child' → child.height < node.height →
    child'.height < node'.height → InStep act act' child child')

include hnode hact

/-- A visit of the child at a slot path goes in step, if the visits of lower children do. -/
theorem call (path : List Nat) :
    InStep (Walk.call path act) (Walk.call path act') node node' := by
  refine atNode ?_
  cases hchild : node.childAt path with
  | error fault => exact fail fault _
  | ok child =>
      obtain ⟨child', hchild', hspelled⟩ := hnode.childAt hchild
      have hbelow := hact child child' hspelled (Node.height_childAt_lt hchild)
        (Node.height_childAt_lt hchild')
      rw [hchild']
      exact descend hspelled.kind_eq hbelow path

/-- Visits of the children in a list go in step, if the visits of lower children do. -/
theorem each (path : List Nat) :
    InStep (Walk.each path act) (Walk.each path act') node node' := by
  refine atNode ?_
  cases hitems : node.listAt path with
  | error fault => exact fail fault _
  | ok items =>
      obtain ⟨items', hitems', hspelled⟩ := hnode.listAt hitems
      have hbelow : ∀ child child', .node child ∈ items → .node child' ∈ items' →
          child.MayRespell child' → InStep act act' child child' := by
        intro child child' hchild hchild' hrespelled
        apply hact child child' hrespelled
        · exact Nat.lt_of_le_of_lt (Slot.height_le_heights hchild) (Node.heights_listAt_lt hitems)
        · exact Nat.lt_of_le_of_lt (Slot.height_le_heights hchild') (Node.heights_listAt_lt hitems')
      rw [hitems']
      exact eachFrom hspelled hbelow 0

end Children

end Faults

end InStep

end Walk

end TreeFormat
