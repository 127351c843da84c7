import Mathlib.Data.List.Forall2
import TreeFormat.Proofs.Print.Courses
import TreeFormat.Proofs.Print.Induction

/-!
# Printing looks down only

What a node prints to depends on the node and not on where it stands: a run on a child
comes to the same as a run that starts there (`Print.within_ensures_print`), and so a rule
makes its document from what the children print to on their own
(`Node.makes_of_print`).

All that the place of a node changes is the front of the routes.  In faults and in reports
the route of the cursor stands for the name of the node (`Cursor.print_relocated`).
-/

namespace TreeFormat

open Print (Goes Makes within)

namespace Print

theorem within_ensures_print
    {height : Nat} {node : Node} (hheight : node.height ≤ height) :
    (within height).Ensures node fun doc => node.print.result = .ok doc := by
  intro cursor log doc after hnode hrun
  obtain ⟨course, hgoes, -⟩ := node.exists_course
  rw [hgoes height cursor hheight hnode log] at hrun
  obtain ⟨hresult, rfl⟩ := Prod.mk.inj hrun
  have hroot : Goes (Cursor.ofRoot node).node course := hgoes
  rw [Node.print, (Cursor.print_of_goes hroot).1]
  cases hending : course.ending with
  | error stop =>
      rw [hending] at hresult
      cases hresult
  | ok found =>
      rw [hending] at hresult
      exact ⟨rfl, hresult⟩

end Print

open Print in
/-- A rule makes the document of a node from what the children print to. -/
theorem Node.makes_of_print
    {node : Node} {doc : Doc} {event : ParserEvent} (hkind : node.kind = .parser event)
    (hprint : node.print.result = .ok doc) :
    Makes (fun child doc => child.print.result = .ok doc) node event doc := by
  have hrun : ((within node.height).run (Cursor.ofRoot node, #[])).1 = .ok doc := hprint
  obtain ⟨height, hheight⟩ := Nat.exists_eq_succ_of_ne_zero (Nat.ne_of_gt node.height_pos)
  have hvisit : ∀ child : Node, child.height < node.height →
      (within height).Ensures child fun doc => child.print.result = .ok doc := by
    intro child hchild
    have hlower : child.height ≤ height := by omega
    exact within_ensures_print hlower
  have hroot : (Cursor.ofRoot node).node.kind = .parser event := hkind
  have hrule := located_ensures (rule_ensures hvisit event)
  rw [hheight, run_within_succ, hroot] at hrun
  exact (hrule (Cursor.ofRoot node) _ doc _ rfl (Prod.ext hrun rfl)).2

/-! ## Routes from elsewhere -/

namespace Cursor

/-- A route that starts with the name of the node, and the same way on from the cursor: the
route of the cursor stands for the name. -/
def Relocates (cursor : Cursor) (alone here : String) : Prop :=
  ∃ way, alone = cursor.node.kind.name ++ way ∧ here = cursor.route ++ way

/-- Two results are the same, apart from the route of a fault. -/
inductive SameResult (cursor : Cursor) : Except PrintFault Doc → Except PrintFault Doc → Prop where
  | ok (doc : Doc) : SameResult cursor (.ok doc) (.ok doc)
  | error {alone here : String} (reason : LookupFault) (hroute : cursor.Relocates alone here) :
      SameResult cursor (.error ⟨alone, reason⟩) (.error ⟨here, reason⟩)

/-- Two reports are the same, apart from the route. -/
structure SameReport (cursor : Cursor) (alone here : Skipped) : Prop where
  node : here.node = alone.node
  route : cursor.Relocates alone.route here.route

variable {root : Node} {cursor : Cursor}

theorem exists_routeTo_eq
    {node found : Node} {position : Position} (hfound : node.nodeAt? position = some found) :
    ∃ way, node.routeTo position = node.kind.name ++ way := by
  cases position with
  | nil => exact ⟨"", by simp [Node.routeTo]⟩
  | cons path rest =>
      obtain ⟨child, hchild, -⟩ := Node.exists_child_of_nodeAt?_cons hfound
      exact ⟨indexText path ++ " > " ++ child.routeTo rest, by
        rw [Node.routeTo_cons hchild, String.append_assoc, String.append_assoc,
          String.append_assoc]⟩

theorem relocates_routeBelow
    {found : Node} {position : Position} (hsound : cursor.Sound)
    (hfound : cursor.node.nodeAt? position = some found) :
    cursor.Relocates ((ofRoot cursor.node).routeBelow position) (cursor.routeBelow position) := by
  obtain ⟨front, hroute⟩ := cursor.exists_route_eq
  obtain ⟨way, hway⟩ := exists_routeTo_eq hfound
  obtain ⟨lower, hlower⟩ := exists_below hfound
  obtain ⟨alone, halone⟩ := @exists_below (ofRoot cursor.node) found position hfound
  refine ⟨way, ?_, ?_⟩
  · rw [routeBelow, halone, ← hway]
    exact route_below_root halone
  · rw [routeBelow, hlower, hroute]
    dsimp only
    rw [route_below hsound hlower hroute, hway, String.append_assoc]

theorem sameReport_events
    (hsound : cursor.Sound) {positions : List Position}
    (hpositions : ∀ position ∈ positions, ∃ found, cursor.node.nodeAt? position = some found) :
    List.Forall₂ cursor.SameReport
      (Log.skipped (positions.flatMap (ofRoot cursor.node).eventsBelow).toArray)
      (Log.skipped (positions.flatMap cursor.eventsBelow).toArray) := by
  induction positions with
  | nil => exact .nil
  | cons position positions ih =>
      have hrest := ih fun later hlater => hpositions later (List.mem_cons_of_mem _ hlater)
      obtain ⟨found, hfound⟩ := hpositions position List.mem_cons_self
      obtain ⟨lower, hlower⟩ := exists_below hfound
      obtain ⟨alone, halone⟩ := @exists_below (ofRoot cursor.node) found position hfound
      have hnode : alone.node = lower.node := by
        have hsame := node_below halone
        rw [show (ofRoot cursor.node).node = cursor.node from rfl, node_below hlower] at hsame
        exact (Option.some.inj hsame).symm
      have hroute : cursor.Relocates alone.route lower.route := by
        have hmoved := relocates_routeBelow hsound hfound
        rwa [routeBelow, halone, routeBelow, hlower] at hmoved
      have hevents : (ofRoot cursor.node).eventsBelow position = alone.events := by
        rw [eventsBelow, halone]
      have hevents' : cursor.eventsBelow position = lower.events := by
        rw [eventsBelow, hlower]
      rw [List.flatMap_cons, List.flatMap_cons, hevents, hevents', Log.skipped_events,
        Log.skipped_events, hnode]
      cases lower.node.kind.isKnown with
      | true => exact hrest
      | false => exact .cons ⟨rfl, hroute⟩ hrest

/-- Printing at a cursor is printing its node alone, apart from routes: the same document or
a fault for the same reason, and the same reports in the same order.  In every route the
one of the cursor stands for the name of the node. -/
theorem print_relocated (hcursor : Reachable root cursor) :
    cursor.SameResult cursor.node.print.result cursor.print.result ∧
      List.Forall₂ cursor.SameReport cursor.node.print.log.skipped cursor.print.log.skipped := by
  obtain ⟨course, hgoes, htour⟩ := cursor.node.exists_course
  obtain ⟨hresult, hlog⟩ := print_of_goes hgoes
  obtain ⟨hresult', hlog'⟩ := @print_of_goes (ofRoot cursor.node) course hgoes
  rw [hresult, hlog, Node.print, hresult', hlog']
  refine ⟨?_, ?_⟩
  · cases hending : course.ending with
    | ok doc => exact .ok doc
    | error stop =>
        rw [Course.stop?, hending] at htour
        obtain ⟨found, hfound, -⟩ := htour.refuses_at_stop
        exact .error stop.reason (relocates_routeBelow hcursor.sound hfound)
  · apply sameReport_events hcursor.sound
    intro position hposition
    rcases List.mem_cons.1 hposition with rfl | hposition
    · exact ⟨cursor.node, rfl⟩
    · exact (htour.reads position hposition).exists_node

/-- A class whose body has an unknown node and then a reference without a name.  The class
stands in a list, and what it reports and where it stops is found from there. -/
theorem print_relocated_class :
    let unknown : Node := .branch (.other "begin") []
    let reference : Node := .branch (.parser .varRef) []
    let body : Node := .branch (.parser .bodyStmt) [.list [.node unknown, .node reference]]
    let definition : Node := .branch (.parser .classDef)
      [.node (.leaf (.scanner .const) "A"), .absent, .node body]
    let root : Node := .branch (.parser .program) [.list [.node definition]]
    let cursor := (ofRoot root).descend definition [0, 0]
    let reason : LookupFault := .missing (.parser .varRef) [0]
    Reachable root cursor ∧
      definition.print.result = .error ⟨"class[2] > bodystmt[0][1] > var_ref", reason⟩ ∧
      cursor.print.result =
        .error ⟨"program[0][0] > class[2] > bodystmt[0][1] > var_ref", reason⟩ ∧
      cursor.print.log.skipped = [⟨unknown, "program[0][0] > class[2] > bodystmt[0][0] > begin"⟩] ∧
      cursor.SameResult definition.print.result cursor.print.result ∧
      List.Forall₂ cursor.SameReport definition.print.log.skipped cursor.print.log.skipped := by
  intro unknown reference body definition root cursor reason
  have hcursor : Reachable root cursor :=
    @Reachable.each root (ofRoot root) definition [0] [.node definition] 0 .root rfl rfl
  obtain ⟨hresult, hreports⟩ := print_relocated hcursor
  have halone : definition.print.result =
      .error ⟨"class[2] > bodystmt[0][1] > var_ref", reason⟩ := by decide +kernel
  have hhere : cursor.print.result =
      .error ⟨"program[0][0] > class[2] > bodystmt[0][1] > var_ref", reason⟩ := by decide +kernel
  have hlog : cursor.print.log.skipped =
      [⟨unknown, "program[0][0] > class[2] > bodystmt[0][0] > begin"⟩] := by decide +kernel
  exact ⟨hcursor, halone, hhere, hlog, hresult, hreports⟩

end Cursor

end TreeFormat
