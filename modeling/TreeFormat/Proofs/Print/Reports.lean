import Mathlib.Data.List.Forall2
import Mathlib.Data.List.Nodup
import TreeFormat.Proofs.Print.Courses

/-!
# Reports of skipped nodes

The log of a run tells of every visit, and of a node of unknown kind it tells at once
that the node was skipped.  Reports are therefore as good as the visits are
(`Node.print_reports`): true, in tree order, never one below another one, and in a run
that ends nothing is missing that the rules read.
-/

namespace TreeFormat

namespace Node

/-- A node of unknown kind is at a position. -/
def isUnknownAt (root : Node) (position : Position) : Bool :=
  (root.nodeAt? position).any fun node => !node.kind.isKnown

/-- What a report tells is true of a position: a node of unknown kind is there, and a
cursor that goes down to it describes its way. -/
structure ReportedAt (root : Node) (position : Position) (report : Skipped) : Prop where
  node : root.nodeAt? position = some report.node
  unknown : report.node.kind.isKnown = false
  route : ∃ cursor, (Cursor.ofRoot root).below? position = some cursor ∧
    report.route = cursor.route

/-! ## Positions that are read -/

theorem Reads.drop
    {root : Node} {position rest : Position} (hreads : root.Reads (position ++ rest)) :
    ∃ node, root.nodeAt? position = some node ∧ node.Reads rest := by
  induction position generalizing root with
  | nil => exact ⟨root, rfl, hreads⟩
  | cons path position ih =>
      cases hreads with
      | inside _ hchild hreads =>
          obtain ⟨node, hnode, hrest⟩ := ih hreads
          exact ⟨node, by rw [nodeAt?_cons hchild, hnode], hrest⟩

theorem readPaths_of_unknown
    {node : Node} (hunknown : node.kind.isKnown = false) : node.readPaths = [] := by
  cases hkind : node.kind with
  | other name => rw [readPaths, hkind]
  | scanner event =>
      rw [hkind] at hunknown
      cases hunknown
  | parser event =>
      rw [hkind] at hunknown
      cases hunknown

/-- Nothing is read below a node of unknown kind. -/
theorem Reads.not_below_unknown
    {root : Node} {position : Position} {path : List Nat} {rest : Position}
    (hunknown : root.isUnknownAt position = true) :
    ¬ root.Reads (position ++ path :: rest) := by
  intro hreads
  obtain ⟨node, hnode, hreads⟩ := hreads.drop
  have hkind : node.kind.isKnown = false := by simpa [isUnknownAt, hnode] using hunknown
  cases hreads with
  | inside hpath _ _ =>
      rw [readPaths_of_unknown hkind] at hpath
      cases hpath

/-- A step down is made through one slot at least. -/
theorem Reads.flatten_lt
    {root : Node} {position : Position} {path : List Nat} {rest : Position}
    (hreads : root.Reads (position ++ path :: rest)) :
    position.flatten < (position ++ path :: rest).flatten := by
  obtain ⟨node, -, hreads⟩ := hreads.drop
  cases hreads with
  | inside hpath _ _ =>
      obtain ⟨slot, inner, rfl, -⟩ := node.readPaths_inOrder.starts path hpath
      have hlt : position.flatten ++ [] < position.flatten ++ slot :: (inner ++ rest.flatten) :=
        List.append_left_lt (List.nil_lt_cons slot _)
      simpa using hlt

end Node

/-! ## Runs from the root -/

section Runs

variable {root : Node} {visits : List Position}

/-- The reports in the events at positions, one for every node of unknown kind. -/
theorem reportedAt_events
    (hvisits : ∀ position ∈ visits, root.Reads position) :
    List.Forall₂ root.ReportedAt (visits.filter root.isUnknownAt)
      (Log.skipped (visits.flatMap (Cursor.ofRoot root).eventsBelow).toArray) := by
  induction visits with
  | nil => exact .nil
  | cons position visits ih =>
      have hrest := ih fun later hlater => hvisits later (List.mem_cons_of_mem _ hlater)
      obtain ⟨node, hnode⟩ := (hvisits position List.mem_cons_self).exists_node
      obtain ⟨cursor, hcursor⟩ :
          ∃ cursor, (Cursor.ofRoot root).below? position = some cursor :=
        Cursor.exists_below hnode
      have hevents : (Cursor.ofRoot root).eventsBelow position = cursor.events := by
        rw [Cursor.eventsBelow, hcursor]
      have hfound : root.nodeAt? position = some cursor.node := Cursor.node_below hcursor
      rw [List.flatMap_cons, hevents, Log.skipped_events]
      cases hknown : cursor.node.kind.isKnown with
      | true =>
          rw [List.filter_cons_of_neg (by simp [Node.isUnknownAt, hfound, hknown])]
          exact hrest
      | false =>
          rw [List.filter_cons_of_pos (by simp [Node.isUnknownAt, hfound, hknown])]
          exact .cons ⟨hfound, hknown, cursor, hcursor, rfl⟩ hrest

/-- The visits of a run: what it logs there is all that it logs, and if it ends it has
been everywhere. -/
theorem Node.print_visits (root : Node) :
    ∃ visits : List Position,
      root.print.log.toList = visits.flatMap (Cursor.ofRoot root).eventsBelow ∧
      (∀ position ∈ visits, root.Reads position) ∧
      (root.print.result.isOk = true → ∀ position, root.Reads position → position ∈ visits) ∧
      visits.Pairwise Position.Before ∧
      List.Forall₂ root.ReportedAt (visits.filter root.isUnknownAt) root.print.log.skipped := by
  obtain ⟨⟨positions, ending⟩, hgoes, htour⟩ := root.exists_course
  obtain ⟨hresult, hlog⟩ := @Cursor.print_of_goes (Cursor.ofRoot root) _ hgoes
  have hreads : ∀ position ∈ [] :: positions, root.Reads position := by
    intro position hposition
    rcases List.mem_cons.1 hposition with rfl | hposition
    · exact .here root
    · exact htour.reads position hposition
  refine ⟨[] :: positions, congrArg Array.toList hlog, hreads, ?_, ?_, ?_⟩
  · intro hended position hposition
    rw [List.mem_cons]
    cases hposition with
    | here => exact .inl rfl
    | inside hpath hchild hrest =>
        cases ending with
        | ok doc => exact .inr (htour.mem_of_reads _ hpath _ _ hchild hrest)
        | error stop =>
            rw [Node.print, hresult] at hended
            cases hended
  · rw [List.pairwise_cons]
    refine ⟨?_, htour.pairwise root.readPaths_inOrder.leftOf⟩
    intro later hlater
    obtain ⟨path, -, -, rest, rfl, -⟩ := htour.exists_child later hlater
    exact .inr ⟨path, rest, rfl⟩
  · rw [Node.print, hlog]
    exact reportedAt_events hreads

theorem Node.ReportedAt.route_eq
    {position : Position} {report : Skipped} (hreport : root.ReportedAt position report) :
    report.route = root.routeTo position := by
  obtain ⟨cursor, hcursor, hroute⟩ := hreport.route
  rw [hroute, Cursor.route_below_root hcursor]

theorem routes_eq
    {reported : List Position} {reports : List Skipped}
    (hreports : List.Forall₂ root.ReportedAt reported reports) :
    reports.map Skipped.route = reported.map root.routeTo := by
  induction hreports with
  | nil => rfl
  | cons hreport _ ih => rw [List.map_cons, List.map_cons, hreport.route_eq, ih]

/-- Reports of different positions have different routes. -/
theorem routes_nodup
    {reported : List Position} {reports : List Skipped}
    (hreports : List.Forall₂ root.ReportedAt reported reports)
    (hreads : ∀ position ∈ reported, root.Reads position) (hnodup : reported.Nodup) :
    (reports.map Skipped.route).Nodup := by
  rw [routes_eq hreports]
  refine hnodup.map_on ?_
  intro position hposition position' hposition' hroutes
  obtain ⟨node, hnode⟩ := (hreads position hposition).exists_node
  obtain ⟨node', hnode'⟩ := (hreads position' hposition').exists_node
  exact Node.routeTo_injective hnode hnode' hroutes

end Runs

/-- A run that ends reports nothing if and only if the rules read no node of unknown
kind. -/
theorem Node.skipped_eq_nil_iff
    {root : Node} {doc : Doc} (hprint : root.print.result = .ok doc) :
    root.print.log.skipped = [] ↔
      ∀ position node, root.Reads position → root.nodeAt? position = some node →
        node.kind.isKnown = true := by
  obtain ⟨visits, -, hreads, hall, -, hreports⟩ := root.print_visits
  constructor
  · intro hnone position node hposition hnode
    have hvisited : position ∈ visits := hall (by rw [hprint]; rfl) position hposition
    rw [hnone, List.forall₂_nil_right_iff, List.filter_eq_nil_iff] at hreports
    simpa [isUnknownAt, hnode] using hreports position hvisited
  · intro hknown
    have hreported : visits.filter root.isUnknownAt = [] := by
      rw [List.filter_eq_nil_iff]
      intro position hposition
      obtain ⟨node, hnode⟩ := (hreads position hposition).exists_node
      simp [isUnknownAt, hnode, hknown position node (hreads position hposition) hnode]
    rw [hreported, List.forall₂_nil_left_iff] at hreports
    exact hreports

/-- The log of a run from the root tells of visits at positions that the rules read, all
of them if the run ends.  The reports among it are the ones of the visited nodes of
unknown kind.  They stand in tree order, none of them below another one, and each has a
route of its own. -/
theorem Node.print_reports (root : Node) :
    ∃ visits reported : List Position,
      root.print.log.toList = visits.flatMap (Cursor.ofRoot root).eventsBelow ∧
      (visits.map List.flatten).Pairwise (· < ·) ∧
      (∀ position ∈ visits, root.Reads position) ∧
      (root.print.result.isOk = true → ∀ position, root.Reads position → position ∈ visits) ∧
      reported = visits.filter root.isUnknownAt ∧
      List.Forall₂ root.ReportedAt reported root.print.log.skipped ∧
      (reported.map List.flatten).Pairwise (· < ·) ∧
      (reported.map List.flatten).Pairwise (fun address later =>
        ¬ address <+: later ∧ ¬ later <+: address) ∧
      (root.print.log.skipped.map Skipped.route).Nodup := by
  obtain ⟨visits, hlog, hreads, hall, hbefore, hreports⟩ := root.print_visits
  have hordered : visits.Pairwise fun position later => position.flatten < later.flatten := by
    refine hbefore.imp_of_mem ?_
    intro position later _ hlater hbefore
    rcases hbefore with hleft | ⟨path, rest, rfl⟩
    · exact hleft.lt
    · exact (hreads _ hlater).flatten_lt
  -- A report excludes visits below it, so of two reported nodes one is left of the other.
  have hapart : (visits.filter root.isUnknownAt).Pairwise fun position later =>
      LeftOf position.flatten later.flatten := by
    refine (hbefore.filter _).imp_of_mem ?_
    intro position later hposition hlater hbefore
    rcases hbefore with hleft | ⟨path, rest, rfl⟩
    · exact hleft
    · rw [List.mem_filter] at hposition hlater
      exact absurd (hreads _ hlater.1) (Node.Reads.not_below_unknown hposition.2)
  have hnodup : (visits.filter root.isUnknownAt).Nodup := by
    refine hapart.imp ?_
    rintro position _ hleft rfl
    exact hleft.not_prefix List.prefix_rfl
  refine ⟨visits, visits.filter root.isUnknownAt, hlog, List.pairwise_map.2 hordered, hreads,
    hall, rfl, hreports, List.pairwise_map.2 (hordered.filter _), List.pairwise_map.2 ?_,
    routes_nodup hreports ?_ hnodup⟩
  · exact hapart.imp fun hleft => ⟨hleft.not_prefix, hleft.not_prefix_symm⟩
  · intro position hposition
    exact hreads position (List.mem_filter.1 hposition).1

end TreeFormat
