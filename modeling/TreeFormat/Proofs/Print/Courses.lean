import TreeFormat.Proofs.Print.Visits

/-!
# How a run goes

What a run does is settled by the node that it starts from: the positions that it visits,
and the document that it makes or the stop that it comes to.  The cursor decides how the
routes of these positions are written, and nothing else (`Node.exists_course`).

A fault gets its route where the rule that refuses it ends, because a lookup leaves it
without one and every route that is filled in is longer than none
(`Cursor.route_ne_empty`).  The rules further out find the route in place.
-/

namespace TreeFormat

/-! ## Routes below a cursor -/

namespace Cursor

/-- The route of a position below a cursor. -/
def routeBelow (cursor : Cursor) (position : Position) : String :=
  match cursor.below? position with
  | some lower => lower.route
  | none => ""

theorem routeBelow_cons
    {cursor : Cursor} {child : Node} {path : List Nat}
    (hchild : cursor.node.childAt path = .ok child) (rest : Position) :
    cursor.routeBelow (path :: rest) = (cursor.descend child path).routeBelow rest := by
  rw [routeBelow, below?_cons hchild]
  rfl

theorem routeBelow_ne_empty
    {cursor : Cursor} {found : Node} {position : Position}
    (hfound : cursor.node.nodeAt? position = some found) (hknown : found.kind.isKnown = true) :
    cursor.routeBelow position ≠ "" := by
  obtain ⟨lower, hlower⟩ := exists_below hfound
  have hnode : found = lower.node := by
    rw [node_below hlower] at hfound
    exact (Option.some.inj hfound).symm
  rw [routeBelow, hlower]
  apply route_ne_empty
  rwa [← hnode]

/-- The fault of a run that stops below a cursor. -/
def faultAt (cursor : Cursor) (stop : Stop) : PrintFault where
  route := cursor.routeBelow stop.position
  reason := stop.reason

theorem faultAt_under
    {cursor : Cursor} {child : Node} {path : List Nat}
    (hchild : cursor.node.childAt path = .ok child) (stop : Stop) :
    cursor.faultAt (stop.under path) = (cursor.descend child path).faultAt stop := by
  rw [faultAt, faultAt, Stop.under, routeBelow_cons hchild]

theorem locate_of_route
    {cursor : Cursor} {fault : PrintFault} (hroute : fault.route ≠ "") :
    fault.locate cursor = fault := by
  rw [PrintFault.locate, if_neg]
  simpa using hroute

end Cursor

/-! ## Courses -/

/-- How a run goes, wherever it starts: the positions that it visits, and the document or
the stop that it ends with. -/
structure Course where
  visits : List Position
  ending : Except Stop Doc

namespace Course

/-- Where a run stops, if it does. -/
def stop? (course : Course) : Option Stop :=
  match course.ending with
  | .ok _ => none
  | .error stop => some stop

end Course

namespace Print

/-- A walk at a cursor goes as a course says. -/
def Takes (act : Printer Doc) (cursor : Cursor) (course : Course) : Prop :=
  ∀ log, act.run (cursor, log) =
    (course.ending.mapError cursor.faultAt, cursor,
      log ++ (course.visits.flatMap cursor.eventsBelow).toArray)

/-- Printing a node goes as a course says, wherever the node stands.  The node comes first,
and the course tells of what is below it. -/
def Goes (node : Node) (course : Course) : Prop :=
  ∀ height cursor, node.height ≤ height → cursor.node = node →
    Takes (within height) cursor ⟨[] :: course.visits, course.ending⟩

theorem run_within_succ (height : Nat) (cursor : Cursor) (log : Log) :
    (within (height + 1)).run (cursor, log) =
      match cursor.node.kind with
      | .scanner _ =>
        (located literal).run (cursor, log.push (.visited cursor.node.kind cursor.depth))
      | .parser event =>
        (located (rule (within height) event)).run
          (cursor, log.push (.visited cursor.node.kind cursor.depth))
      | .other _ =>
        (located skip).run (cursor, log.push (.visited cursor.node.kind cursor.depth)) := by
  have hrun : (within (height + 1)).run (cursor, log) =
      (located <|
        match cursor.node.kind with
        | .scanner _ => literal
        | .parser event => rule (within height) event
        | .other _ => skip).run
          (cursor, log.push (.visited cursor.node.kind cursor.depth)) := by rfl
  rw [hrun]
  cases cursor.node.kind <;> rfl

theorem run_literal (cursor : Cursor) (log : Log) :
    literal.run (cursor, log) =
      match cursor.node with
      | .leaf _ content => (.ok (.text content), cursor, log)
      | .branch kind _ => (.error ⟨"", .shape kind [] .literal⟩, cursor, log) := by
  have hrun : literal.run (cursor, log) =
      (match cursor.node with
        | .leaf _ content => return .text content
        | .branch kind _ => Walk.fail (.shape kind [] .literal) : Printer Doc).run
          (cursor, log) := by rfl
  rw [hrun]
  cases cursor.node <;> rfl

theorem within_returns (height : Nat) : Returns (within height) := by
  induction height with
  | zero =>
      intro cursor log
      rfl
  | succ height ih =>
      intro cursor log
      rw [run_within_succ]
      split
      · rw [run_located, run_literal]
        split <;> rfl
      · next event _ =>
          obtain ⟨plan, -, hrun⟩ := rule_plans cursor.node event
          rw [run_located, hrun _ ih _ _ rfl]
          exact plan.run_returns ih _ _
      · rfl

/-! ## Courses of plans -/

/-- An action that makes a document without a visit. -/
theorem located_run_done
    {act : Printer Doc} {cursor : Cursor} {doc : Doc}
    (hrun : ∀ log, act.run (cursor, log) = (.ok doc, cursor, log)) :
    Takes (located act) cursor ⟨[], .ok doc⟩ := by
  intro log
  rw [run_located, hrun]
  simp [Except.mapError]

/-- An action that stops at once gets the route of the cursor. -/
theorem located_run_stop
    {act : Printer Doc} {cursor : Cursor} {reason : LookupFault}
    (hrun : ∀ log, act.run (cursor, log) = (.error ⟨"", reason⟩, cursor, log)) :
    Takes (located act) cursor ⟨[], .error ⟨[], reason⟩⟩ := by
  intro log
  have hroute : cursor.routeBelow [] = cursor.route := rfl
  rw [run_located, hrun]
  simp [Except.mapError, PrintFault.locate, Cursor.faultAt, hroute]

/-- A plan whose first child prints goes on with the rest. -/
theorem located_run_visit_ok
    {visit : Printer Doc} {cursor : Cursor} {path : List Nat} {child : Node}
    {next : Doc → Plan Doc} {doc : Doc} {inside rest : List Position}
    {ending : Except Stop Doc}
    (hreturns : Returns visit) (hchild : cursor.node.childAt path = .ok child)
    (hvisit : Takes visit (cursor.descend child path) ⟨[] :: inside, .ok doc⟩)
    (hrest : Takes (located ((next doc).run visit)) cursor ⟨rest, ending⟩) :
    Takes (located ((Plan.visit path child next).run visit)) cursor
      ⟨([] :: inside).map (path :: ·) ++ rest, ending⟩ := by
  intro log
  have hevents := Cursor.flatMap_eventsBelow hchild ([] :: inside)
  have hrun := hvisit log
  have hafter := hrest
    (log ++ (([] :: inside).flatMap (cursor.descend child path).eventsBelow).toArray)
  rw [run_located] at hafter ⊢
  rw [Plan.run_visit _ _ _ _ _ hreturns, hrun, List.flatMap_append, hevents]
  simpa [Except.mapError] using hafter

/-- A plan whose first child stops, stops there. -/
theorem located_run_visit_error
    {visit : Printer Doc} {cursor : Cursor} {path : List Nat} {child : Node}
    {next : Doc → Plan Doc} {stop : Stop} {inside : List Position}
    (hreturns : Returns visit) (hchild : cursor.node.childAt path = .ok child)
    (hvisit : Takes visit (cursor.descend child path) ⟨[] :: inside, .error stop⟩)
    (hroute : (cursor.faultAt (stop.under path)).route ≠ "") :
    Takes (located ((Plan.visit path child next).run visit)) cursor
      ⟨([] :: inside).map (path :: ·), .error (stop.under path)⟩ := by
  intro log
  have hevents := Cursor.flatMap_eventsBelow hchild ([] :: inside)
  have hkept := @Cursor.locate_of_route cursor _ hroute
  have hrun := hvisit log
  rw [Cursor.faultAt_under hchild] at hkept
  rw [run_located, Plan.run_visit _ _ _ _ _ hreturns, hrun, hevents]
  simp [Except.mapError, Cursor.faultAt_under hchild, hkept]

/-- Carrying out a plan at a node goes as a course says, wherever the node stands. -/
def Plan.AmountsTo (plan : Plan Doc) (node : Node) (course : Course) : Prop :=
  ∀ height cursor, node.height ≤ height + 1 → cursor.node = node →
    Takes (located (plan.run (within height))) cursor course

namespace Plan

variable {node child : Node} {path : List Nat} {next : Doc → Plan Doc}

theorem done_amountsTo (node : Node) (doc : Doc) : (done doc).AmountsTo node ⟨[], .ok doc⟩ :=
  fun _ _ _ _ => located_run_done fun _ => rfl

theorem stop_amountsTo (node : Node) (reason : LookupFault) :
    (stop reason).AmountsTo node ⟨[], .error ⟨[], reason⟩⟩ :=
  fun _ _ _ _ => located_run_stop fun _ => rfl

theorem visit_amountsTo_of_ok
    {doc : Doc} {inside rest : List Position} {ending : Except Stop Doc}
    (hchild : node.childAt path = .ok child) (hgoes : Goes child ⟨inside, .ok doc⟩)
    (hrest : (next doc).AmountsTo node ⟨rest, ending⟩) :
    (visit path child next).AmountsTo node ⟨([] :: inside).map (path :: ·) ++ rest, ending⟩ := by
  have hlower := Node.height_childAt_lt hchild
  rintro height cursor hheight rfl
  have hinside := hgoes height (cursor.descend child path) (by omega) rfl
  exact located_run_visit_ok (within_returns height) hchild hinside
    (hrest height cursor hheight rfl)

theorem visit_amountsTo_of_error
    {stop : Stop} {inside : List Position} {found : Node}
    (hchild : node.childAt path = .ok child) (hgoes : Goes child ⟨inside, .error stop⟩)
    (hfound : child.nodeAt? stop.position = some found) (hknown : found.kind.isKnown = true) :
    (visit path child next).AmountsTo node
      ⟨([] :: inside).map (path :: ·), .error (stop.under path)⟩ := by
  have hlower := Node.height_childAt_lt hchild
  rintro height cursor hheight rfl
  have hinside := hgoes height (cursor.descend child path) (by omega) rfl
  have hroute : (cursor.faultAt (stop.under path)).route ≠ "" := by
    rw [Cursor.faultAt_under hchild]
    exact Cursor.routeBelow_ne_empty hfound hknown
  exact located_run_visit_error (within_returns height) hchild hinside hroute

/-- A plan of a node of known kind has a course if the children have. -/
theorem Follows.exists_course
    {plan : Plan Doc} {paths : List (List Nat)} {ends : Bool}
    (hplan : Follows node paths ends plan) (hknown : node.kind.isKnown = true)
    (hvisit : ∀ child path, node.childAt path = .ok child →
      ∃ course, Goes child course ∧ Tour child child.readPaths course.stop? course.visits) :
    ∃ course, plan.AmountsTo node course ∧ Tour node paths course.stop? course.visits := by
  induction hplan with
  | done doc => exact ⟨_, done_amountsTo node doc, .done node⟩
  | @stop paths reason hrefuses =>
      exact ⟨_, stop_amountsTo node reason, .stop hknown hrefuses paths⟩
  | @visit path child next paths ends hchild hnext ih =>
      obtain ⟨⟨inside, ending⟩, hgoes, htour⟩ := hvisit child path hchild
      cases ending with
      | error stop =>
          obtain ⟨found, hfound, hfoundKnown, -⟩ := htour.refuses_at_stop
          exact ⟨_, visit_amountsTo_of_error hchild hgoes hfound hfoundKnown,
            .last hchild htour paths⟩
      | ok doc =>
          obtain ⟨course, hrest, htour'⟩ := ih doc
          exact ⟨_, visit_amountsTo_of_ok hchild hgoes hrest, .next hchild htour htour'⟩

end Plan

/-! ## Courses of nodes -/

/-- Printing a node of known kind logs the visit and follows the rule. -/
theorem goes_of_takes
    {node : Node} {course : Course} {act : Nat → Printer Doc} (hknown : node.kind.isKnown = true)
    (hrun : ∀ height cursor log, cursor.node = node →
      (within (height + 1)).run (cursor, log) =
        (located (act height)).run (cursor, log.push (.visited cursor.node.kind cursor.depth)))
    (htakes : ∀ height cursor, node.height ≤ height + 1 → cursor.node = node →
      Takes (located (act height)) cursor course) : Goes node course := by
  intro height cursor hheight hnode log
  cases height with
  | zero => exact absurd node.height_pos (Nat.not_lt.2 hheight)
  | succ height =>
      have hhere : cursor.eventsBelow [] = [.visited cursor.node.kind cursor.depth] := by
        rw [Cursor.eventsBelow_nil, Cursor.events_of_isKnown (by rw [hnode, hknown])]
      rw [hrun height cursor log hnode, htakes height cursor hheight hnode]
      simp [hhere]

theorem goes_of_literal
    {node : Node} {course : Course} {event : ScannerEvent} (hkind : node.kind = .scanner event)
    (htakes : ∀ cursor : Cursor, cursor.node = node → Takes (located literal) cursor course) :
    Goes node course := by
  refine goes_of_takes (by rw [hkind]; rfl) ?_ fun _ cursor _ => htakes cursor
  rintro height cursor log rfl
  rw [run_within_succ, hkind]

theorem goes_of_rule
    {node : Node} {course : Course} {event : ParserEvent} {plan : Plan Doc}
    (hkind : node.kind = .parser event)
    (hcarries : Carries (fun visit => rule visit event) node plan)
    (hplan : plan.AmountsTo node course) : Goes node course := by
  refine goes_of_takes (by rw [hkind]; rfl) ?_ hplan
  rintro height cursor log rfl
  have hrule : ∀ entered, (rule (within height) event).run (cursor, entered) =
      (plan.run (within height)).run (cursor, entered) := by
    intro entered
    exact hcarries _ (within_returns height) cursor entered rfl
  rw [run_within_succ, hkind]
  dsimp only
  rw [run_located, run_located, hrule]

/-- A node of unknown kind is skipped, whatever is in it. -/
theorem goes_of_unknown
    {node : Node} {name : String} (hkind : node.kind = .other name) :
    Goes node ⟨[], .ok .nil⟩ := by
  rintro height cursor hheight rfl log
  cases height with
  | zero => exact absurd cursor.node.height_pos (Nat.not_lt.2 hheight)
  | succ height =>
      have hhere : cursor.eventsBelow [] =
          [.visited cursor.node.kind cursor.depth, .skipped ⟨cursor.node, cursor.route⟩] := by
        rw [Cursor.eventsBelow_nil, Cursor.events, hkind]
        rfl
      have hskip : ∀ entered, skip.run (cursor, entered) =
          (.ok .nil, cursor, entered.push (.skipped ⟨cursor.node, cursor.route⟩)) :=
        fun _ => rfl
      rw [run_within_succ, hkind]
      dsimp only
      rw [run_located, hskip, ← hkind, List.flatMap_singleton, hhere]
      rfl

theorem goes_of_leaf
    {kind : Kind} {event : ScannerEvent} (hkind : kind = .scanner event) (content : String) :
    Goes (.leaf kind content) ⟨[], .ok (.text content)⟩ := by
  refine @goes_of_literal (.leaf kind content) _ event hkind fun cursor hcursor => ?_
  exact located_run_done fun log => by rw [run_literal, hcursor]

theorem goes_of_branch
    {kind : Kind} {event : ScannerEvent} (hkind : kind = .scanner event) (slots : List Slot) :
    Goes (.branch kind slots) ⟨[], .error ⟨[], .shape kind [] .literal⟩⟩ := by
  refine @goes_of_literal (.branch kind slots) _ event hkind fun cursor hcursor => ?_
  exact located_run_stop fun log => by rw [run_literal, hcursor]

end Print

open Print in
/-- Printing a node goes one way, wherever the node stands and whatever was logged before.
The visits are a tour of what the rules read. -/
theorem Node.exists_course (node : Node) :
    ∃ course, Goes node course ∧ Tour node node.readPaths course.stop? course.visits := by
  -- A plan goes down to children only, and these are lower than their node.
  induction hsize : node.height using Nat.strongRecOn generalizing node with
  | _ size ih =>
      cases hkind : node.kind with
      | scanner event =>
          have hknown : node.kind.isKnown = true := by rw [hkind]; rfl
          have hpaths : node.readPaths = [] := by rw [readPaths, hkind]
          rw [hpaths]
          cases node with
          | leaf kind content => exact ⟨_, goes_of_leaf hkind content, .done _⟩
          | branch kind slots =>
              exact ⟨_, goes_of_branch hkind slots, .stop hknown (.literal hkind rfl rfl) []⟩
      | parser event =>
          have hknown : node.kind.isKnown = true := by rw [hkind]; rfl
          have hpaths : node.readPaths = node.readPathsAs event := by rw [readPaths, hkind]
          have hvisit : ∀ child path, node.childAt path = .ok child →
              ∃ course, Goes child course ∧
                Tour child child.readPaths course.stop? course.visits := by
            intro child path hchild
            exact ih child.height (hsize ▸ height_childAt_lt hchild) child rfl
          obtain ⟨plan, hplan, hcarries⟩ := rule_plans node event
          obtain ⟨course, hamounts, htour⟩ := hplan.exists_course hknown hvisit
          exact ⟨course, goes_of_rule hkind hcarries hamounts, hpaths ▸ htour⟩
      | other name =>
          have hpaths : node.readPaths = [] := by rw [readPaths, hkind]
          rw [hpaths]
          exact ⟨⟨[], .ok .nil⟩, goes_of_unknown hkind, .done node⟩

theorem Cursor.print_of_goes
    {cursor : Cursor} {course : Course} (hgoes : Print.Goes cursor.node course) :
    cursor.print.result = course.ending.mapError cursor.faultAt ∧
      cursor.print.log = (([] :: course.visits).flatMap cursor.eventsBelow).toArray := by
  have hrun : Print.here.run (cursor, #[]) =
      (Print.within cursor.node.height).run (cursor, #[]) := rfl
  rw [hgoes _ cursor (Nat.le_refl _) rfl, Array.empty_append] at hrun
  exact ⟨congrArg Prod.fst hrun, congrArg (fun ended => ended.2.2) hrun⟩

end TreeFormat
