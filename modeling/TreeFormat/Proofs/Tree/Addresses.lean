import TreeFormat.Proofs.Tree.Positions

/-!
# The trail is an address

All frames of a cursor share one flat trail.  The offsets that the frames remember cut it
into the slot paths of the single steps, and each of these leads, from the node of one
frame, to the node of the next one (`Cursor.Addressed`).  So the trail of a cursor says
exactly where it is.

The route says no less: two cursors in a tree with the same route took the same slot paths
and are the same cursor, whatever the kinds on the way are called
(`Cursor.addressed_of_reachable`).
-/

namespace TreeFormat

theorem Node.ne_nil_of_childAt
    {node child : Node} {path : List Nat} (hchild : node.childAt path = .ok child) :
    path ≠ [] := by
  rintro rfl
  have hslots := slotAt_nil_eq_ok (childAt_eq_ok_iff.1 hchild)
  cases hslots

theorem Node.childAt_of_listAt
    {node child : Node} {path : List Nat} {items : List Slot} {index : Nat}
    (hitems : node.listAt path = .ok items) (hchild : items[index]? = some (.node child)) :
    node.childAt (path ++ [index]) = .ok child :=
  childAt_eq_ok_iff.2 (slotAt_concat_eq_ok_iff.2 ⟨items, listAt_eq_ok_iff.1 hitems, hchild⟩)

namespace Cursor

/-- Every visit goes to the child at a slot path, be it one visit or one of several. -/
theorem Reachable.visit_induction
    {root : Node} {cursor : Cursor} (hcursor : Reachable root cursor)
    {motive : Cursor → Prop} (hroot : motive (ofRoot root))
    (hvisit : ∀ (cursor : Cursor) (child : Node) (path : List Nat), Reachable root cursor →
      cursor.node.childAt path = .ok child → motive cursor →
        motive (cursor.descend child path)) : motive cursor := by
  induction hcursor with
  | root => exact hroot
  | call hcursor hchild ih => exact hvisit _ _ _ hcursor hchild ih
  | each hcursor hitems hchild ih =>
      exact hvisit _ _ _ hcursor (Node.childAt_of_listAt hitems hchild) ih

/-! ## Cutting the trail -/

/-- The offsets in the frames cut the trail into the slot paths of the steps from the root
of a tree down to the current node. -/
structure Addressed (root : Node) (cursor : Cursor) : Prop where
  root : cursor.frames.head? = some ⟨root, 0⟩
  /-- There is a segment of the trail for every frame but the first one. -/
  count : cursor.frames.length = cursor.segments.length + 1
  /-- A frame remembers where the segments in front of its own one end. -/
  start (index : Nat) (frame : Frame) :
    cursor.frames[index + 1]? = some frame →
      frame.start = (cursor.segments.take index).flatten.length
  trail : cursor.segments.flatten = cursor.trail
  segment_ne_nil : ∀ segment ∈ cursor.segments, segment ≠ []
  /-- From the node of a frame, the segment of the next frame leads to the node there. -/
  resolves (index : Nat) (segment : List Nat) :
    cursor.segments[index]? = some segment →
      ∃ upper lower, cursor.frames[index]? = some upper ∧
        cursor.frames[index + 1]? = some lower ∧
        upper.node.slotAt segment = .ok (.node lower.node)

theorem addressed_ofRoot (root : Node) : Addressed root (ofRoot root) where
  root := rfl
  count := rfl
  start index frame hframe := by simp [frames, ofRoot] at hframe
  trail := rfl
  segment_ne_nil segment hsegment := by simp [segments, frames, ofRoot, runs] at hsegment
  resolves index segment hsegment := by simp [segments, frames, ofRoot, runs] at hsegment

theorem getLast?_frames (cursor : Cursor) : cursor.frames.getLast? = some cursor.focus := by
  simp [frames]

theorem Addressed.descend
    {root child : Node} {cursor : Cursor} {path : List Nat}
    (haddressed : Addressed root cursor) (hsound : cursor.Sound)
    (hchild : cursor.node.childAt path = .ok child) :
    Addressed root (cursor.descend child path) := by
  have hframes := frames_descend cursor child path
  have hsegments := segments_descend hsound child path
  have hcount := haddressed.count
  constructor
  case root =>
    rw [hframes, List.head?_append, haddressed.root]
    rfl
  case count =>
    rw [hframes, hsegments, List.length_append, List.length_append, hcount]
    rfl
  case start =>
    intro index frame hframe
    rw [hframes] at hframe
    rw [hsegments]
    by_cases hindex : index < cursor.segments.length
    · rw [List.getElem?_append_left (by omega)] at hframe
      rw [haddressed.start index frame hframe, List.take_append_of_le_length (by omega)]
    · have hlast : index = cursor.segments.length := by
        have hbound := (List.getElem?_eq_some_iff.1 hframe).1
        rw [List.length_append, hcount, List.length_singleton] at hbound
        omega
      rw [hlast, ← hcount, List.getElem?_concat_length] at hframe
      cases hframe
      rw [hlast, List.take_left, haddressed.trail]
  case trail =>
    rw [hsegments, List.flatten_append, haddressed.trail]
    simp [Cursor.descend]
  case segment_ne_nil =>
    intro segment hsegment
    rw [hsegments, List.mem_append, List.mem_singleton] at hsegment
    rcases hsegment with hsegment | rfl
    · exact haddressed.segment_ne_nil segment hsegment
    · exact Node.ne_nil_of_childAt hchild
  case resolves =>
    intro index segment hsegment
    rw [hsegments] at hsegment
    rw [hframes]
    by_cases hindex : index < cursor.segments.length
    · rw [List.getElem?_append_left hindex] at hsegment
      obtain ⟨upper, lower, hupper, hlower, hslot⟩ :=
        haddressed.resolves index segment hsegment
      refine ⟨upper, lower, ?_, ?_, hslot⟩
      · rw [List.getElem?_append_left (by omega), hupper]
      · rw [List.getElem?_append_left (by omega), hlower]
    · have hlast : index = cursor.segments.length := by
        have hbound := (List.getElem?_eq_some_iff.1 hsegment).1
        rw [List.length_append, List.length_singleton] at hbound
        omega
      rw [hlast, List.getElem?_concat_length] at hsegment
      cases hsegment
      have hfocus := cursor.getLast?_frames
      rw [List.getLast?_eq_getElem?, hcount, Nat.add_sub_cancel, ← hlast] at hfocus
      refine ⟨cursor.focus, ⟨child, cursor.trail.length⟩, ?_, ?_, Node.childAt_eq_ok_iff.1 hchild⟩
      · rw [List.getElem?_append_left (by omega), hfocus]
      · rw [hlast, ← hcount, List.getElem?_concat_length]

/-! ## Following the trail -/

theorem below?_concat
    {cursor lower : Cursor} {child : Node} {position : Position} {path : List Nat}
    (hlower : cursor.below? position = some lower) (hchild : lower.node.childAt path = .ok child) :
    cursor.below? (position ++ [path]) = some (lower.descend child path) := by
  induction position generalizing cursor with
  | nil =>
      cases hlower
      rw [List.nil_append, below?_cons hchild, below?]
  | cons first rest ih =>
      cases hfirst : cursor.node.childAt first with
      | error fault => simp [below?, hfirst] at hlower
      | ok next =>
          rw [below?_cons hfirst] at hlower
          rw [List.cons_append, below?_cons hfirst]
          exact ih hlower

/-- The segments of a cursor are the position that it stands at. -/
theorem Reachable.below_segments
    {root : Node} {cursor : Cursor} (hcursor : Reachable root cursor) :
    (ofRoot root).below? cursor.segments = some cursor := by
  refine hcursor.visit_induction
    (motive := fun cursor => (ofRoot root).below? cursor.segments = some cursor) rfl ?_
  intro cursor child path hcursor hchild hbelow
  have hstep := below?_concat hbelow hchild
  rwa [← segments_descend hcursor.sound] at hstep

theorem Reachable.segments_eq_of_route_eq
    {root : Node} {cursor other : Cursor} (hcursor : Reachable root cursor)
    (hother : Reachable root other) (hroute : other.route = cursor.route) :
    other.segments = cursor.segments := by
  have hsame : root.routeTo other.segments = root.routeTo cursor.segments := by
    rw [← route_below_root hother.below_segments, ← route_below_root hcursor.below_segments, hroute]
  exact Node.routeTo_injective (node_below hother.below_segments)
    (node_below hcursor.below_segments) hsame

/-- The trail of a cursor that visits got to is the exact address of its node, and its
route belongs to no other cursor in the tree. -/
theorem addressed_of_reachable
    {root : Node} {cursor : Cursor} (hcursor : Reachable root cursor) :
    cursor.Addressed root ∧
      ∀ other, Reachable root other → other.route = cursor.route →
        other.segments = cursor.segments ∧ other = cursor := by
  constructor
  · refine hcursor.visit_induction (addressed_ofRoot root) ?_
    intro cursor child path hcursor hchild haddressed
    exact haddressed.descend hcursor.sound hchild
  · intro other hother hroute
    have hsegments := hcursor.segments_eq_of_route_eq hother hroute
    have hbelow := hother.below_segments
    rw [hsegments, hcursor.below_segments] at hbelow
    exact ⟨hsegments, (Option.some.inj hbelow).symm⟩

/-- Below kinds that are called like routes: a way down through a nested list to a child,
and on to a child behind an absent one, ends where the visit of a list comes to. -/
theorem addressed_of_reachable_nested :
    let name : Node := .leaf (.scanner .ident) "x"
    let inner : Node := .branch (.other "b[1] > c") [.absent, .node name]
    let root : Node := .branch (.other "a > b") [.list [.list [.absent, .node inner]]]
    let cursor := ((ofRoot root).descend inner [0, 0, 1]).descend name [1]
    Reachable root cursor ∧ cursor.Addressed root ∧
      cursor.segments = [[0, 0, 1], [1]] ∧
      cursor.route = "a > b[0][0][1] > b[1] > c[1] > @ident" ∧
      ∀ other, Reachable root other → other.route = cursor.route → other = cursor := by
  intro name inner root cursor
  have hinner : Reachable root ((ofRoot root).descend inner ([0, 0] ++ [1])) :=
    .each .root (by rfl) (by rfl)
  have hcursor : Reachable root cursor := .call hinner (by rfl)
  obtain ⟨haddressed, hunique⟩ := addressed_of_reachable hcursor
  exact ⟨hcursor, haddressed, by rfl, by decide +kernel,
    fun other hother hroute => (hunique other hother hroute).2⟩

end Cursor

end TreeFormat
