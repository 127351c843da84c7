import TreeFormat.Proofs.Print.Plans

/-!
# What a run visits

A run comes to the nodes of the tree one after the other.  `Tour` describes the
positions below a node in the order in which the plan of its rule gets to them, for
runs that end and for runs that stop on the way.

The order of the visits is the order of the tree, nothing is visited below a node of
unknown kind (`Tour.pairwise`), and a run that ends has been everywhere it should
(`Tour.mem_of_reads`).  A run that stops does so at a node of known kind that refuses a
lookup (`Tour.refuses_at_stop`).
-/

namespace TreeFormat

/-- What is logged where a cursor stands. -/
def Cursor.events (cursor : Cursor) : List Event :=
  .visited cursor.node.kind cursor.depth ::
    if cursor.node.kind.isKnown then [] else [.skipped ⟨cursor.node, cursor.route⟩]

/-- What is logged at a position below a cursor. -/
def Cursor.eventsBelow (cursor : Cursor) (position : Position) : List Event :=
  match cursor.below? position with
  | some lower => lower.events
  | none => []

theorem Cursor.events_of_isKnown
    {cursor : Cursor} (hknown : cursor.node.kind.isKnown = true) :
    cursor.events = [.visited cursor.node.kind cursor.depth] := by
  rw [events, hknown]
  rfl

theorem Cursor.eventsBelow_nil (cursor : Cursor) : cursor.eventsBelow [] = cursor.events := rfl

theorem Cursor.eventsBelow_cons
    {cursor : Cursor} {child : Node} {path : List Nat}
    (hchild : cursor.node.childAt path = .ok child) (rest : Position) :
    cursor.eventsBelow (path :: rest) = (cursor.descend child path).eventsBelow rest := by
  rw [eventsBelow, below?_cons hchild]
  rfl

/-- What is logged at a child and below it, seen from the node. -/
theorem Cursor.flatMap_eventsBelow
    {cursor : Cursor} {child : Node} {path : List Nat}
    (hchild : cursor.node.childAt path = .ok child) (positions : List Position) :
    (positions.map (path :: ·)).flatMap cursor.eventsBelow =
      positions.flatMap (cursor.descend child path).eventsBelow := by
  rw [List.flatMap_map]
  congr 1
  funext position
  exact eventsBelow_cons hchild position

theorem Log.skipped_events (cursor : Cursor) (events : List Event) :
    Log.skipped (cursor.events ++ events).toArray =
      (if cursor.node.kind.isKnown then [] else [⟨cursor.node, cursor.route⟩]) ++
        Log.skipped events.toArray := by
  cases hknown : cursor.node.kind.isKnown <;> simp [Cursor.events, hknown, Log.skipped]

/-! ## Tours -/

/-- A position is to the left of another one or above it. -/
def Position.Before (position later : Position) : Prop :=
  LeftOf position.flatten later.flatten ∨ ∃ path rest, later = position ++ path :: rest

theorem Position.Before.cons
    {position later : Position} (hbefore : position.Before later) (path : List Nat) :
    Position.Before (path :: position) (path :: later) := by
  rcases hbefore with hleft | ⟨next, rest, rfl⟩
  · exact .inl (hleft.prepend path)
  · exact .inr ⟨next, rest, rfl⟩

/-- Where a run stops, as seen from a node, and why. -/
structure Stop where
  position : Position
  reason : LookupFault

/-- A stop as seen from the node above. -/
def Stop.under (path : List Nat) (stop : Stop) : Stop where
  position := path :: stop.position
  reason := stop.reason

/-- The positions below a node that are visited, in order, when the children at slot
paths are printed, and where the run stops if it does not get to the end. -/
inductive Tour : Node → List (List Nat) → Option Stop → List Position → Prop where
  | done (node : Node) : Tour node [] none []
  | stop {node : Node} {reason : LookupFault}
      (hknown : node.kind.isKnown = true) (hrefuses : node.Refuses reason)
      (paths : List (List Nat)) : Tour node paths (some ⟨[], reason⟩) []
  | last {node child : Node} {path : List Nat} {stop : Stop} {positions : List Position}
      (hchild : node.childAt path = .ok child)
      (hinside : Tour child child.readPaths (some stop) positions) (paths : List (List Nat)) :
      Tour node (path :: paths) (some (stop.under path)) (([] :: positions).map (path :: ·))
  | next {node child : Node} {path : List Nat} {paths : List (List Nat)} {stop? : Option Stop}
      {positions rest : List Position}
      (hchild : node.childAt path = .ok child)
      (hinside : Tour child child.readPaths none positions)
      (hrest : Tour node paths stop? rest) :
      Tour node (path :: paths) stop? (([] :: positions).map (path :: ·) ++ rest)

namespace Tour

variable {node : Node} {paths : List (List Nat)} {stop? : Option Stop} {positions : List Position}

/-- A run stops at a node of known kind, for a lookup that this node refuses. -/
theorem refuses_at_stop
    {stop : Stop} (htour : Tour node paths (some stop) positions) :
    ∃ found, node.nodeAt? stop.position = some found ∧ found.kind.isKnown = true ∧
      found.Refuses stop.reason := by
  generalize hstop : some stop = stop? at htour
  induction htour generalizing stop with
  | done node => cases hstop
  | @stop node reason hknown hrefuses paths =>
      cases hstop
      exact ⟨node, rfl, hknown, hrefuses⟩
  | last hchild _ paths ih =>
      cases hstop
      obtain ⟨found, hfound, hknown, hrefuses⟩ := ih rfl
      exact ⟨found, by rw [Stop.under, Node.nodeAt?_cons hchild, hfound], hknown, hrefuses⟩
  | next _ _ _ _ ihrest => exact ihrest hstop

/-- Visits below a node start with the slot path of a child, and what they find there
is read. -/
theorem exists_child
    (htour : Tour node paths stop? positions) :
    ∀ position ∈ positions, ∃ path ∈ paths, ∃ child rest, position = path :: rest ∧
      node.childAt path = .ok child ∧ child.Reads rest := by
  have hfront : ∀ {node child : Node} {path : List Nat} {positions : List Position},
      node.childAt path = .ok child →
      (∀ position ∈ positions, ∃ path ∈ child.readPaths, ∃ grandchild rest,
        position = path :: rest ∧ child.childAt path = .ok grandchild ∧ grandchild.Reads rest) →
      ∀ position ∈ ([] :: positions).map (path :: ·), ∃ rest, position = path :: rest ∧
        child.Reads rest := by
    intro node child path positions hchild hinside position hposition
    obtain ⟨rest, hrest, rfl⟩ := List.mem_map.1 hposition
    refine ⟨rest, rfl, ?_⟩
    rcases List.mem_cons.1 hrest with rfl | hrest
    · exact .here child
    · obtain ⟨next, hnext, grandchild, rest, rfl, hgrandchild, hreads⟩ := hinside rest hrest
      exact .inside hnext hgrandchild hreads
  induction htour with
  | done node => simp
  | stop _ _ paths => simp
  | last hchild _ paths ih =>
      intro position hposition
      obtain ⟨rest, hrest, hreads⟩ := hfront hchild ih position hposition
      exact ⟨_, List.mem_cons_self, _, rest, hrest, hchild, hreads⟩
  | next hchild _ _ ih ihrest =>
      intro position hposition
      rcases List.mem_append.1 hposition with hposition | hposition
      · obtain ⟨rest, hrest, hreads⟩ := hfront hchild ih position hposition
        exact ⟨_, List.mem_cons_self, _, rest, hrest, hchild, hreads⟩
      · obtain ⟨path, hpath, child, rest, hrest⟩ := ihrest position hposition
        exact ⟨path, List.mem_cons_of_mem _ hpath, child, rest, hrest⟩

theorem reads
    (htour : Tour node node.readPaths stop? positions) :
    ∀ position ∈ positions, node.Reads position := by
  intro position hposition
  obtain ⟨path, hpath, child, rest, rfl, hchild, hreads⟩ := htour.exists_child position hposition
  exact .inside hpath hchild hreads

/-- A tour that ends has been to everything that is read. -/
theorem mem_of_reads
    (htour : Tour node paths none positions) :
    ∀ path ∈ paths, ∀ child rest, node.childAt path = .ok child → child.Reads rest →
      path :: rest ∈ positions := by
  generalize hended : none = stop? at htour
  induction htour with
  | done node => simp
  | stop _ _ paths => cases hended
  | last hchild _ paths _ => cases hended
  | @next node child path paths stop? positions rest hchild hinside hrest ih ihrest =>
      intro path' hpath child' position hchild' hreads
      rcases List.mem_cons.1 hpath with rfl | hpath
      · apply List.mem_append_left
        apply List.mem_map_of_mem
        have hsame : child = child' := by
          rw [hchild] at hchild'
          exact Except.ok.inj hchild'
        subst hsame
        cases hreads with
        | here => exact List.mem_cons_self
        | inside hnext hgrandchild hreads =>
            exact List.mem_cons_of_mem _ (ih rfl _ hnext _ _ hgrandchild hreads)
      · exact List.mem_append_right _ (ihrest hended path' hpath child' position hchild' hreads)

/-- All visits of a child start with its slot path, and the child comes first. -/
theorem pairwise_inside
    (hinside : Tour node paths stop? positions) (hpositions : positions.Pairwise Position.Before)
    (path : List Nat) : (([] :: positions).map (path :: ·)).Pairwise Position.Before := by
  rw [List.pairwise_map, List.pairwise_cons]
  refine ⟨?_, hpositions.imp fun hbefore => hbefore.cons path⟩
  intro later hlater
  obtain ⟨next, -, -, rest, rfl, -⟩ := hinside.exists_child later hlater
  exact .inr ⟨next, rest, rfl⟩

/-- Of two visits the first one is to the left of the second one or above it. -/
theorem pairwise
    (htour : Tour node paths stop? positions) (hpaths : paths.Pairwise LeftOf) :
    positions.Pairwise Position.Before := by
  induction htour with
  | done node => exact .nil
  | stop _ _ paths => exact .nil
  | @last node child path stop positions hchild hinside paths ih =>
      exact pairwise_inside hinside (ih child.readPaths_inOrder.leftOf) path
  | @next node child path paths stop? positions rest hchild hinside hrest ih ihrest =>
      rw [List.pairwise_cons] at hpaths
      rw [List.pairwise_append]
      refine ⟨pairwise_inside hinside (ih child.readPaths_inOrder.leftOf) path,
        ihrest hpaths.2, ?_⟩
      intro position hposition later hlater
      obtain ⟨below, -, rfl⟩ := List.mem_map.1 hposition
      obtain ⟨path', hpath', -, below', rfl, -⟩ := hrest.exists_child later hlater
      exact .inl ((hpaths.1 path' hpath').append below.flatten below'.flatten)

end Tour

end TreeFormat
