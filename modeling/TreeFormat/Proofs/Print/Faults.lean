import TreeFormat.Proofs.Print.Courses

/-!
# Faults point at their cause

A run that stops tells of one node, however deep it is and whatever was printed before.
The route of the fault is the route of this node and of no other one, and a cursor that
stands there meets the fault again (`Node.print_fault`).
-/

namespace TreeFormat

/-- A fault comes from the node under a cursor: its route leads there, the node has a rule,
and what the fault tells of the node is true. -/
structure Cursor.Causes (cursor : Cursor) (fault : PrintFault) : Prop where
  route : fault.route = cursor.route
  known : cursor.node.kind.isKnown = true
  kind : fault.reason.kind = cursor.node.kind
  reproduces : cursor.Reproduces fault.reason

theorem Cursor.causes_of_refuses
    {cursor lower : Cursor} {stop : Stop} (hlower : cursor.below? stop.position = some lower)
    (hknown : lower.node.kind.isKnown = true) (hrefuses : lower.node.Refuses stop.reason) :
    lower.Causes (cursor.faultAt stop) where
  route := by rw [faultAt, routeBelow, hlower]
  known := hknown
  kind := hrefuses.kind_eq
  reproduces := hrefuses.reproduces

/-- Of two cursors below the root with one route, both stand at the same position. -/
theorem Cursor.position_unique
    {root : Node} {cursor cursor' : Cursor} {position position' : Position}
    (hcursor : (ofRoot root).below? position = some cursor)
    (hcursor' : (ofRoot root).below? position' = some cursor')
    (hroute : cursor.route = cursor'.route) : position = position' := by
  rw [route_below_root hcursor, route_below_root hcursor'] at hroute
  exact Node.routeTo_injective (node_below hcursor) (node_below hcursor') hroute

/-- A fault of a run from the root comes from a node of the tree that has a rule: its reason
names the kind of this node, and a lookup there fails for it.  The route of the fault is not
empty and leads to this node only, so it is not the route of a node above. -/
theorem Node.print_fault
    {root : Node} {fault : PrintFault} (hprint : root.print.result = .error fault) :
    ∃ position cursor, (Cursor.ofRoot root).below? position = some cursor ∧
      root.nodeAt? position = some cursor.node ∧ cursor.Causes fault ∧ fault.route ≠ "" ∧
      ∀ position' cursor', (Cursor.ofRoot root).below? position' = some cursor' →
        fault.route = cursor'.route → position' = position := by
  obtain ⟨course, hgoes, htour⟩ := root.exists_course
  have hresult := (@Cursor.print_of_goes (Cursor.ofRoot root) course hgoes).1
  rw [← Node.print, hprint] at hresult
  cases hending : course.ending with
  | ok doc =>
      rw [hending] at hresult
      cases hresult
  | error stop =>
      rw [hending] at hresult
      have hfault : fault = (Cursor.ofRoot root).faultAt stop := Except.error.inj hresult
      rw [Course.stop?, hending] at htour
      obtain ⟨node, hnode, hknown, hrefuses⟩ := htour.refuses_at_stop
      obtain ⟨cursor, hcursor⟩ : ∃ cursor,
          (Cursor.ofRoot root).below? stop.position = some cursor := Cursor.exists_below hnode
      have hfound : root.nodeAt? stop.position = some cursor.node := Cursor.node_below hcursor
      have hsame : node = cursor.node := by
        rw [hfound] at hnode
        exact (Option.some.inj hnode).symm
      subst hsame
      have hcauses := Cursor.causes_of_refuses hcursor hknown hrefuses
      rw [← hfault] at hcauses
      refine ⟨stop.position, cursor, hcursor, hfound, hcauses, ?_, ?_⟩
      · rw [hcauses.route]
        exact Cursor.route_ne_empty hknown
      · intro position' cursor' hcursor' hroute
        rw [hcauses.route] at hroute
        exact Cursor.position_unique hcursor' hcursor hroute.symm

/-- A call without a method, behind a statement that prints and below a receiver that does.
The fault is the one of the call. -/
theorem Node.print_fault_missing_method :
    let receiver : Node := .branch (.parser .vcall) [.node (.leaf (.scanner .ident) "a")]
    let call : Node := .branch (.parser .call) [.node receiver, .token ".", .absent]
    let root : Node := .branch (.parser .program) [.list [.node receiver, .node call]]
    let fault : PrintFault := ⟨"program[0][1] > call", .shape (.parser .call) [2] .node⟩
    root.print.result = .error fault ∧
      ∃ position cursor, (Cursor.ofRoot root).below? position = some cursor ∧
        root.nodeAt? position = some cursor.node ∧ cursor.Causes fault ∧ fault.route ≠ "" ∧
        ∀ position' cursor', (Cursor.ofRoot root).below? position' = some cursor' →
          fault.route = cursor'.route → position' = position := by
  intro receiver call root fault
  have hprint : root.print.result = .error fault := by rfl
  exact ⟨hprint, Node.print_fault hprint⟩

end TreeFormat
