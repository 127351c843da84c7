import TreeFormat.Proofs.Format
import TreeFormat.Proofs.Print.Reports
import TreeFormat.Proofs.Print.Twins

/-!
# Nodes of unknown kind are opaque

Two trees that differ only in the bodies of nodes of unknown kind print alike: to the same
document or with the same fault, and with the same reports (`Node.print_of_resembles`).  The
runs take the same course (`Node.Shares`), because a rule carries out the same plan at two
nodes that resemble each other.

There are two places where a rule does see into a node of unknown kind.  The text of a leaf
counts as a token, so an operator has to be the same in both trees.  And a class or a module
looks for the first statement of its body, of whatever kind the body is.  A body of unknown
kind prints nothing, but there is an empty line in its place if something in it passes for a
statement (`Node.print_unlike_of_resembles`).
-/

namespace TreeFormat

open Print (Goes Carries)

/-! ## Relations between two trees -/

namespace Node

variable {node node' child child' : Node} {path : List Nat} {position : Position}

/-- A relation holds between the two nodes at every position that is read. -/
def Throughout (relation : Node → Node → Prop) (root root' : Node) : Prop :=
  ∀ position node node', root.Reads position → root.nodeAt? position = some node →
    root'.nodeAt? position = some node' → relation node node'

namespace Throughout

variable {relation : Node → Node → Prop}

theorem here (hall : Throughout relation node node') : relation node node' :=
  hall [] node node' (.here node) rfl rfl

theorem descend
    (hall : Throughout relation node node') (hpath : path ∈ node.readPaths)
    (hchild : node.childAt path = .ok child) (hchild' : node'.childAt path = .ok child') :
    Throughout relation child child' := by
  intro position found found' hreads hfound hfound'
  refine hall (path :: position) found found' (.inside hpath hchild hreads) ?_ ?_
  · rw [nodeAt?_cons hchild, hfound]
  · rw [nodeAt?_cons hchild', hfound']

theorem of_children
    (hhere : relation node node')
    (hchildren : ∀ path ∈ node.readPaths, ∀ child child', node.childAt path = .ok child →
      node'.childAt path = .ok child' → Throughout relation child child') :
    Throughout relation node node' := by
  intro position found found' hreads hfound hfound'
  cases hreads with
  | here =>
      cases hfound
      cases hfound'
      exact hhere
  | @inside _ child path rest hpath hchild hrest =>
      obtain ⟨child', hchild', hfound'⟩ := exists_child_of_nodeAt?_cons hfound'
      rw [nodeAt?_cons hchild] at hfound
      exact hchildren path hpath child child' hchild hchild' rest found found' hrest hfound hfound'

theorem refl (hrefl : ∀ node, relation node node) (node : Node) :
    Throughout relation node node := by
  intro position found found' _ hfound hfound'
  rw [hfound] at hfound'
  cases hfound'
  exact hrefl found

/-- Nothing is read below a node of unknown kind. -/
theorem of_unknown
    (hhere : relation node node') (hunknown : node.kind.isKnown = false) :
    Throughout relation node node' := by
  refine of_children hhere ?_
  rw [readPaths_of_unknown hunknown]
  exact List.forall_mem_nil _

end Throughout

/-- An operator of unknown kind is the same in both nodes. -/
def SameOperator (node node' : Node) : Prop :=
  node.kind = .parser .binary ∨ node.kind = .parser .call →
    ∀ operator, node.slotAt [1] = .ok (.node operator) → operator.kind.isKnown = false →
      node'.slotAt [1] = .ok (.node operator)

/-- If the body of a class or a module is of unknown kind, the line breaks in front of it in
both or in neither. -/
def SameOpening (node node' : Node) : Prop :=
  ∀ path body, node.bodyPath? = some path → node.childAt path = .ok body →
    body.kind.isKnown = false → node.breaksBeforeBody = node'.breaksBeforeBody

theorem sameOperator_of_ne
    (hbinary : node.kind ≠ .parser .binary) (hcall : node.kind ≠ .parser .call) :
    node.SameOperator node' := by
  rintro (hkind | hkind)
  · exact absurd hkind hbinary
  · exact absurd hkind hcall

theorem sameOpening_of_bodyPath (hplace : node.bodyPath? = none) : node.SameOpening node' := by
  intro path body hbody
  rw [hplace] at hbody
  cases hbody

/-- A body of known kind opens with statements of the same kind. -/
theorem Resembles.firstStatement?_kind_eq
    {slot : Nat} (hresembles : node.Resembles node') (hknown : node.kind.isKnown = true)
    (hbody : ∀ body, node.childAt [slot] = .ok body → body.kind.isKnown = true) :
    (Print.firstStatement? node slot).map Node.kind =
      (Print.firstStatement? node' slot).map Node.kind := by
  unfold Print.firstStatement?
  rcases (hresembles.slotAt hknown [slot]).eq_or with
    ⟨fault, hfault, hfault'⟩ | ⟨found, found', hok, hok', hslot⟩
  · rw [hfault, hfault']
  · rw [hok, hok']
    cases hslot with
    | absent => rfl
    | token text => rfl
    | list hitems => rfl
    | node hchild =>
        have hslots := hchild.slots (hbody _ (childAt_eq_ok_iff.2 hok))
        dsimp only
        rw [List.head?_eq_getElem?, List.head?_eq_getElem?]
        rcases hslots.getElem? 0 with ⟨hnone, hnone'⟩ | ⟨first, first', hsome, hsome', hfirst⟩
        · rw [hnone, hnone']
        · rw [hsome, hsome']
          cases hfirst with
          | absent => rfl
          | token text => rfl
          | node hchild => rfl
          | list hitems => exact hitems.child?_kind_eq

theorem Resembles.breaksInFront_eq
    {slot : Nat} (hresembles : node.Resembles node') (hknown : node.kind.isKnown = true)
    (hbody : ∀ body, node.childAt [slot] = .ok body → body.kind.isKnown = true) :
    node.breaksInFront slot = node'.breaksInFront slot :=
  breaksInFront_congr (hresembles.firstStatement?_kind_eq hknown hbody)

theorem Resembles.agrees
    (hresembles : node.Resembles node') (hknown : node.kind.isKnown = true)
    (hoperator : node.SameOperator node') (hopening : node.SameOpening node') :
    node.Agrees node' where
  token hkind := hresembles.tokenAt_eq hknown (hoperator hkind)
  breaks := by
    have hkind := hresembles.kind_eq
    by_cases hbody : ∃ path body, node.bodyPath? = some path ∧ node.childAt path = .ok body ∧
        body.kind.isKnown = false
    · obtain ⟨path, body, hplace, hchild, hunknown⟩ := hbody
      exact hopening path body hplace hchild hunknown
    · have hseen : ∀ path, node.bodyPath? = some path → ∀ body, node.childAt path = .ok body →
          body.kind.isKnown = true := by
        intro path hplace body hchild
        by_contra hunknown
        exact hbody ⟨path, body, hplace, hchild, Bool.eq_false_iff.2 hunknown⟩
      unfold breaksBeforeBody
      rw [← hkind]
      split
      · next hclass =>
          exact hresembles.breaksInFront_eq hknown (hseen [2] (by rw [bodyPath?, hclass]))
      · next hmodule =>
          exact hresembles.breaksInFront_eq hknown (hseen [1] (by rw [bodyPath?, hmodule]))
      · rfl

/-! ## Courses that two nodes share -/

/-- The same way leads down from two nodes, to nodes of the same kind. -/
structure Meets (node node' : Node) (position : Position) (kind : Kind) : Prop where
  left : (node.nodeAt? position).map Node.kind = some kind
  right : (node'.nodeAt? position).map Node.kind = some kind
  route : node.routeTo position = node'.routeTo position

theorem meets_here (hkind : node.kind = node'.kind) : node.Meets node' [] node.kind where
  left := rfl
  right := by rw [nodeAt?_nil, hkind]; rfl
  route := by rw [routeTo, routeTo, hkind]

theorem Meets.inside
    {kind : Kind} (hmeets : child.Meets child' position kind) (hkind : node.kind = node'.kind)
    (hchild : node.childAt path = .ok child) (hchild' : node'.childAt path = .ok child') :
    node.Meets node' (path :: position) kind where
  left := by rw [nodeAt?_cons hchild, hmeets.left]
  right := by rw [nodeAt?_cons hchild', hmeets.right]
  route := by rw [routeTo_cons hchild, routeTo_cons hchild', hkind, hmeets.route]

/-- A course comes by the same places below two nodes, and if it stops it does so at a node of
known kind. -/
structure Passes (node node' : Node) (course : Course) : Prop where
  visits : ∀ position ∈ course.visits, ∃ kind, node.Meets node' position kind
  stop : ∀ stop, course.ending = .error stop →
    ∃ kind, node.Meets node' stop.position kind ∧ kind.isKnown = true

theorem passes_done (node node' : Node) (doc : Doc) : node.Passes node' ⟨[], .ok doc⟩ where
  visits := by simp
  stop _ hstop := by cases hstop

theorem passes_stop
    (hkind : node.kind = node'.kind) (hknown : node.kind.isKnown = true) (reason : LookupFault) :
    node.Passes node' ⟨[], .error ⟨[], reason⟩⟩ where
  visits := by simp
  stop := by
    rintro stop hstop
    cases hstop
    exact ⟨node.kind, meets_here hkind, hknown⟩

/-- Printing two nodes goes as the same course says. -/
structure Shares (node node' : Node) (course : Course) : Prop where
  kind : node.kind = node'.kind
  left : Goes node course
  right : Goes node' course
  passes : node.Passes node' course

end Node

namespace Print

variable {node node' : Node}

/-- Two plans that are the same apart from the children go as one course says, if the children
share theirs. -/
theorem Plan.Twins.exists_course
    {paths : List (List Nat)} {plan plan' : Plan Doc} (htwins : plan.Twins node node' paths plan')
    (hkind : node.kind = node'.kind) (hknown : node.kind.isKnown = true)
    (hvisit : ∀ path ∈ paths, ∀ child child', node.childAt path = .ok child →
      node'.childAt path = .ok child' → ∃ course, child.Shares child' course) :
    ∃ course, plan.AmountsTo node course ∧ plan'.AmountsTo node' course ∧
      node.Passes node' course := by
  induction htwins with
  | done doc =>
      exact ⟨_, Plan.done_amountsTo node doc, Plan.done_amountsTo node' doc, Node.passes_done ..⟩
  | stop paths reason =>
      exact ⟨_, Plan.stop_amountsTo node reason, Plan.stop_amountsTo node' reason,
        Node.passes_stop hkind hknown reason⟩
  | @visit path child child' next next' paths hchild hchild' _ ih =>
      obtain ⟨⟨inside, ending⟩, hsame, hleft, hright, hpasses⟩ :=
        hvisit path List.mem_cons_self child child' hchild hchild'
      have hbelow : ∀ position ∈ ([] :: inside).map (path :: ·), ∃ kind,
          node.Meets node' position kind := by
        intro position hposition
        obtain ⟨below, hbelow, rfl⟩ := List.mem_map.1 hposition
        rcases List.mem_cons.1 hbelow with rfl | hbelow
        · exact ⟨child.kind, (Node.meets_here hsame).inside hkind hchild hchild'⟩
        · obtain ⟨kind, hmeets⟩ := hpasses.visits below hbelow
          exact ⟨kind, hmeets.inside hkind hchild hchild'⟩
      cases ending with
      | error stop =>
          obtain ⟨kind, hmeets, hstop⟩ := hpasses.stop stop rfl
          obtain ⟨found, hfound, rfl⟩ := Option.map_eq_some_iff.1 hmeets.left
          obtain ⟨found', hfound', hsame⟩ := Option.map_eq_some_iff.1 hmeets.right
          refine ⟨_, visit_amountsTo_of_error hchild hleft hfound hstop,
            visit_amountsTo_of_error hchild' hright hfound' (hsame ▸ hstop), hbelow, ?_⟩
          rintro _ ⟨⟩
          exact ⟨_, hmeets.inside hkind hchild hchild', hstop⟩
      | ok doc =>
          obtain ⟨⟨rest, ending⟩, hplan, hplan', hrest⟩ :=
            ih doc fun path hpath => hvisit path (List.mem_cons_of_mem _ hpath)
          refine ⟨_, visit_amountsTo_of_ok hchild hleft hplan,
            visit_amountsTo_of_ok hchild' hright hplan', ?_, hrest.stop⟩
          intro position hposition
          rcases List.mem_append.1 hposition with hposition | hposition
          · exact hbelow position hposition
          · exact hrest.visits position hposition

end Print

namespace Node

open Print

/-- Two trees that resemble each other share a course. -/
theorem Resembles.exists_course
    {node node' : Node} (hresembles : node.Resembles node')
    (hoperators : Throughout SameOperator node node')
    (hopenings : Throughout SameOpening node node') : ∃ course, node.Shares node' course := by
  -- A plan goes down to children only, and these are lower than their node.
  induction hsize : node.height using Nat.strongRecOn generalizing node node' with
  | _ size ih =>
      have hsame := hresembles.kind_eq
      cases hkind : node.kind with
      | scanner event =>
          have hknown : node.kind.isKnown = true := by rw [hkind]; rfl
          cases hresembles with
          | leaf kind text =>
              have hgoes := goes_of_leaf hkind text
              exact ⟨_, rfl, hgoes, hgoes, passes_done ..⟩
          | @branch kind slots slots' hslots =>
              exact ⟨_, rfl, goes_of_branch hkind slots, goes_of_branch hkind slots',
                passes_stop hsame hknown _⟩
          | unknown _ hunknown =>
              rw [hknown] at hunknown
              cases hunknown
      | parser event =>
          have hknown : node.kind.isKnown = true := by rw [hkind]; rfl
          have hpaths : node.readPaths = node.readPathsAs event := by rw [readPaths, hkind]
          have hvisit : ∀ path ∈ node.readPathsAs event, ∀ child child',
              node.childAt path = .ok child → node'.childAt path = .ok child' →
                ∃ course, child.Shares child' course := by
            intro path hpath child child' hchild hchild'
            rw [← hpaths] at hpath
            have hbelow := hresembles.childAt hknown path
            rw [hchild, hchild'] at hbelow
            cases hbelow with
            | ok hbelow =>
                exact ih child.height (hsize ▸ height_childAt_lt hchild) hbelow
                  (hoperators.descend hpath hchild hchild')
                  (hopenings.descend hpath hchild hchild') rfl
          have hagrees := hresembles.agrees hknown hoperators.here hopenings.here
          obtain ⟨plan, plan', htwins, hcarries, hcarries'⟩ := rule_twin hresembles hkind hagrees
          obtain ⟨course, hplan, hplan', hpasses⟩ := htwins.exists_course hsame hknown hvisit
          exact ⟨course, hsame, goes_of_rule hkind hcarries hplan,
            goes_of_rule (hsame ▸ hkind) hcarries' hplan', hpasses⟩
      | other name =>
          exact ⟨_, hsame, goes_of_unknown hkind, goes_of_unknown (hsame ▸ hkind),
            passes_done ..⟩

end Node

/-! ## Faults and reports -/

/-- Two reports tell of nodes of the same kind, on the same way. -/
structure Skipped.Alike (report report' : Skipped) : Prop where
  kind : report.node.kind = report'.node.kind
  route : report.route = report'.route

namespace Node

variable {root root' : Node}

theorem Meets.exists_cursors
    {position : Position} {kind : Kind} (hmeets : root.Meets root' position kind) :
    ∃ lower lower', (Cursor.ofRoot root).below? position = some lower ∧
      (Cursor.ofRoot root').below? position = some lower' ∧
      lower.node.kind = lower'.node.kind ∧ lower.route = lower'.route := by
  obtain ⟨found, hfound, hkind⟩ := Option.map_eq_some_iff.1 hmeets.left
  obtain ⟨found', hfound', hkind'⟩ := Option.map_eq_some_iff.1 hmeets.right
  obtain ⟨lower, hlower⟩ := @Cursor.exists_below (Cursor.ofRoot root) found position hfound
  obtain ⟨lower', hlower'⟩ := @Cursor.exists_below (Cursor.ofRoot root') found' position hfound'
  have hnode : root.nodeAt? position = some lower.node := Cursor.node_below hlower
  have hnode' : root'.nodeAt? position = some lower'.node := Cursor.node_below hlower'
  rw [hfound] at hnode
  rw [hfound'] at hnode'
  cases hnode
  cases hnode'
  refine ⟨lower, lower', hlower, hlower', hkind.trans hkind'.symm, ?_⟩
  rw [Cursor.route_below_root hlower, Cursor.route_below_root hlower', hmeets.route]

theorem Meets.faultAt_eq
    {stop : Stop} {kind : Kind} (hmeets : root.Meets root' stop.position kind) :
    (Cursor.ofRoot root).faultAt stop = (Cursor.ofRoot root').faultAt stop := by
  obtain ⟨lower, lower', hlower, hlower', -, hroute⟩ := hmeets.exists_cursors
  simp only [Cursor.faultAt, Cursor.routeBelow, hlower, hlower', hroute]

theorem reports_alike
    {positions : List Position}
    (hpositions : ∀ position ∈ positions, ∃ kind, root.Meets root' position kind) :
    List.Forall₂ Skipped.Alike
      (Log.skipped (positions.flatMap (Cursor.ofRoot root).eventsBelow).toArray)
      (Log.skipped (positions.flatMap (Cursor.ofRoot root').eventsBelow).toArray) := by
  induction positions with
  | nil => exact .nil
  | cons position positions ih =>
      have hrest := ih fun later hlater => hpositions later (List.mem_cons_of_mem _ hlater)
      obtain ⟨kind, hmeets⟩ := hpositions position List.mem_cons_self
      obtain ⟨lower, lower', hlower, hlower', hkind, hroute⟩ := hmeets.exists_cursors
      have hevents : (Cursor.ofRoot root).eventsBelow position = lower.events := by
        rw [Cursor.eventsBelow, hlower]
      have hevents' : (Cursor.ofRoot root').eventsBelow position = lower'.events := by
        rw [Cursor.eventsBelow, hlower']
      rw [List.flatMap_cons, List.flatMap_cons, hevents, hevents', Log.skipped_events,
        Log.skipped_events, ← hkind]
      cases lower.node.kind.isKnown with
      | true => exact hrest
      | false => exact .cons ⟨hkind, hroute⟩ hrest

/-- Two trees that differ only in the bodies of nodes of unknown kind print to the same document
or with the same fault.  They have as many reports, of the same kinds and on the same ways, in
the same order.  None of the unknown nodes may be an operator, and an unknown body of a class or
a module must begin alike in both. -/
theorem print_of_resembles
    (hresembles : root.Resembles root') (hoperators : Throughout SameOperator root root')
    (hopenings : Throughout SameOpening root root') :
    root.print.result = root'.print.result ∧
      List.Forall₂ Skipped.Alike root.print.log.skipped root'.print.log.skipped := by
  obtain ⟨course, hsame, hleft, hright, hpasses⟩ :=
    hresembles.exists_course hoperators hopenings
  obtain ⟨hresult, hlog⟩ := @Cursor.print_of_goes (Cursor.ofRoot root) course hleft
  obtain ⟨hresult', hlog'⟩ := @Cursor.print_of_goes (Cursor.ofRoot root') course hright
  rw [Node.print, Node.print, hresult, hresult', hlog, hlog']
  constructor
  · cases hending : course.ending with
    | ok doc => rfl
    | error stop =>
        obtain ⟨kind, hmeets, -⟩ := hpasses.stop stop hending
        exact congrArg Except.error hmeets.faultAt_eq
  · apply reports_alike
    intro position hposition
    rcases List.mem_cons.1 hposition with rfl | hposition
    · exact ⟨root.kind, meets_here hsame⟩
    · exact hpasses.visits position hposition

/-- A sum of an unknown node, with an operator of unknown kind, and a class with an unknown body.
The second tree has other contents in two of these, and one of them is a leaf there. -/
theorem print_of_resembles_sum :
    let name (text : String) : Node := .leaf (.scanner .ident) text
    let body (text : String) : Node := .branch (.other "begin") [.list [.node (name text)]]
    let sum (operand : Node) : Node := .branch (.parser .binary)
      [.node (name "a"), .node (.leaf (.other "operator") "+"), .node operand]
    let definition (text : String) : Node := .branch (.parser .classDef)
      [.node (.leaf (.scanner .const) "Foo"), .absent, .node (body text)]
    let root : Node := .branch (.parser .program)
      [.list [.node (sum (.branch (.other "yield") [])), .node (definition "b")]]
    let root' : Node := .branch (.parser .program)
      [.list [.node (sum (.leaf (.other "yield") "c")), .node (definition "d")]]
    root.Resembles root' ∧ Throughout SameOperator root root' ∧
      Throughout SameOpening root root' ∧
      (root.format {}).result.toOption = some "a + \nclass Foo\n\nend\n" ∧
      root.print.log.skipped.map Skipped.route =
        ["program[0][0] > binary[2] > yield", "program[0][1] > class[2] > begin"] ∧
      root.print.result = root'.print.result ∧
      List.Forall₂ Skipped.Alike root.print.log.skipped root'.print.log.skipped := by
  intro name body sum definition root root'
  have hbody : (body "b").Resembles (body "d") := .unknown rfl rfl
  have hdefinition : (definition "b").Resembles (definition "d") :=
    .branch _ (.cons (.node (.leaf _ _)) (.cons .absent (.cons (.node hbody) .nil)))
  have hsum : (sum (.branch (.other "yield") [])).Resembles (sum (.leaf (.other "yield") "c")) :=
    .branch _ (.cons (.node (.leaf _ _)) (.cons (.node (.leaf _ _))
      (.cons (.node (.unknown rfl rfl)) .nil)))
  have hroot : root.Resembles root' :=
    .branch _ (.cons (.list (.cons (.node hsum) (.cons (.node hdefinition) .nil))) .nil)
  have hall : ∀ {relation : Node → Node → Prop}, (∀ node, relation node node) →
      relation root root' → relation (.branch (.other "yield") []) (.leaf (.other "yield") "c") →
      relation (sum (.branch (.other "yield") [])) (sum (.leaf (.other "yield") "c")) →
      relation (body "b") (body "d") → relation (definition "b") (definition "d") →
        Throughout relation root root' := by
    intro relation hrefl hhere hoperand hoperation hinside houtside
    have hsums : Throughout relation (sum (.branch (.other "yield") []))
        (sum (.leaf (.other "yield") "c")) := by
      refine .of_children hoperation ?_
      simp only [show (sum (.branch (.other "yield") [])).readPaths = [[0], [2]] from rfl,
        List.forall_mem_cons]
      refine ⟨?_, ?_, List.forall_mem_nil _⟩
      · rintro _ _ ⟨⟩ ⟨⟩
        exact .refl hrefl _
      · rintro _ _ ⟨⟩ ⟨⟩
        exact .of_unknown hoperand rfl
    have hdefinitions : Throughout relation (definition "b") (definition "d") := by
      refine .of_children houtside ?_
      simp only [show (definition "b").readPaths = [[0], [2]] from rfl, List.forall_mem_cons]
      refine ⟨?_, ?_, List.forall_mem_nil _⟩
      · rintro _ _ ⟨⟩ ⟨⟩
        exact .refl hrefl _
      · rintro _ _ ⟨⟩ ⟨⟩
        exact .of_unknown hinside rfl
    refine .of_children hhere ?_
    simp only [show root.readPaths = [[0, 0], [0, 1]] from rfl, List.forall_mem_cons]
    refine ⟨?_, ?_, List.forall_mem_nil _⟩
    · rintro _ _ ⟨⟩ ⟨⟩
      exact hsums
    · rintro _ _ ⟨⟩ ⟨⟩
      exact hdefinitions
  have hoperators : Throughout SameOperator root root' := by
    apply hall
    · exact fun _ _ _ hoperator _ => hoperator
    · exact sameOperator_of_ne (by decide) (by decide)
    · exact sameOperator_of_ne (by decide) (by decide)
    · exact fun _ _ hoperator _ => hoperator
    · exact sameOperator_of_ne (by decide) (by decide)
    · exact sameOperator_of_ne (by decide) (by decide)
  have hopenings : Throughout SameOpening root root' := by
    apply hall
    · exact fun _ _ _ _ _ _ => rfl
    · exact sameOpening_of_bodyPath rfl
    · exact sameOpening_of_bodyPath rfl
    · exact sameOpening_of_bodyPath rfl
    · exact sameOpening_of_bodyPath rfl
    · exact fun _ _ _ _ _ => rfl
  exact ⟨hroot, hoperators, hopenings, by decide +kernel, by decide +kernel,
    print_of_resembles hroot hoperators hopenings⟩

/-- A class whose body is of unknown kind.  What is in the body passes for a statement in the
first tree, and the line breaks in front of it although nothing is printed there. -/
theorem print_unlike_of_resembles :
    let body (inside : List Slot) : Node := .branch (.other "begin") [.list inside]
    let definition (inside : List Slot) : Node := .branch (.parser .classDef)
      [.node (.leaf (.scanner .const) "Foo"), .absent, .node (body inside)]
    let root : Node := .branch (.parser .program)
      [.list [.node (definition [.node (.leaf (.scanner .ident) "x")])]]
    let root' : Node := .branch (.parser .program) [.list [.node (definition [])]]
    root.Resembles root' ∧ Throughout SameOperator root root' ∧
      root.print.result ≠ root'.print.result ∧
      (root.format {}).result.toOption = some "class Foo\n\nend\n" ∧
      (root'.format {}).result.toOption = some "class Foo\nend\n" ∧
      root.print.log.skipped.map Skipped.route = ["program[0][0] > class[2] > begin"] ∧
      root'.print.log.skipped.map Skipped.route = ["program[0][0] > class[2] > begin"] := by
  intro body definition root root'
  let statement : Slot := .node (.leaf (.scanner .ident) "x")
  have hbody : (body [statement]).Resembles (body []) := .unknown rfl rfl
  have hdefinition : (definition [statement]).Resembles (definition []) :=
    .branch _ (.cons (.node (.leaf _ _)) (.cons .absent (.cons (.node hbody) .nil)))
  have hroot : root.Resembles root' :=
    .branch _ (.cons (.list (.cons (.node hdefinition) .nil)) .nil)
  have hoperators : Throughout SameOperator (definition [statement]) (definition []) := by
    refine .of_children (sameOperator_of_ne (by decide) (by decide)) ?_
    simp only [show (definition [statement]).readPaths = [[0], [2]] from rfl, List.forall_mem_cons]
    refine ⟨?_, ?_, List.forall_mem_nil _⟩
    · rintro _ _ ⟨⟩ ⟨⟩
      exact .refl (fun _ _ _ hoperator _ => hoperator) _
    · rintro _ _ ⟨⟩ ⟨⟩
      exact .of_unknown (sameOperator_of_ne (by decide) (by decide)) rfl
  have hfirst : (root.format {}).result.toOption = some "class Foo\n\nend\n" := by decide +kernel
  have hsecond : (root'.format {}).result.toOption = some "class Foo\nend\n" := by decide +kernel
  refine ⟨hroot, .of_children (sameOperator_of_ne (by decide) (by decide)) ?_, ?_, hfirst, hsecond,
    by decide +kernel, by decide +kernel⟩
  · simp only [show root.readPaths = [[0, 0]] from rfl, List.forall_mem_cons]
    refine ⟨?_, List.forall_mem_nil _⟩
    rintro _ _ ⟨⟩ ⟨⟩
    exact hoperators
  · intro hsame
    rw [format_result, hsame, ← format_result, hsecond] at hfirst
    exact absurd hfirst (by decide)

end Node

end TreeFormat
