import TreeFormat.Proofs.Print.Courses

/-!
# Which trees print

A node prints if it fits and if the children that its rule reads print, and it stops the
run otherwise.  So a tree prints if and only if every node that the rules read has what its
own rule asks for (`Node.print_isOk_iff`).
-/

namespace TreeFormat

theorem isOk_mapError
    {ε ε' α : Type} (result : Except ε α) (change : ε → ε') :
    (result.mapError change).isOk = result.isOk := by
  cases result <;> rfl

namespace Print

theorem within_isOk
    {height : Nat} {cursor : Cursor} (hheight : cursor.node.height ≤ height) (log : Log) :
    ((within height).run (cursor, log)).1.isOk = cursor.node.print.result.isOk := by
  obtain ⟨course, hgoes, -⟩ := cursor.node.exists_course
  have hroot := (@Cursor.print_of_goes (Cursor.ofRoot cursor.node) course hgoes).1
  rw [hgoes height cursor hheight rfl log, Node.print, hroot, isOk_mapError, isOk_mapError]

/-- A plan ends with a value if it is not going to stop by itself and all children that it
visits print. -/
theorem Plan.Follows.isOk_iff
    {α : Type} {node : Node} {paths : List (List Nat)} {ends : Bool} {plan : Plan α}
    (hplan : Plan.Follows node paths ends plan)
    {visit : Printer Doc} (hreturns : Returns visit) {cursor : Cursor}
    (hvisit : ∀ child path, node.childAt path = .ok child → ∀ log,
      (visit.run (cursor.descend child path, log)).1.isOk = child.print.result.isOk)
    (log : Log) :
    ((plan.run visit).run (cursor, log)).1.isOk = true ↔
      ends = true ∧ ∀ path ∈ paths, ∀ child, node.childAt path = .ok child →
        child.print.result.isOk = true := by
  induction hplan generalizing log with
  | done value => exact ⟨fun _ => ⟨rfl, by simp⟩, fun _ => rfl⟩
  | stop paths hrefuses =>
      constructor
      · intro hok
        cases hok
      · rintro ⟨hends, -⟩
        cases hends
  | @visit path child next paths ends hchild hnext ih =>
      have hfirst := hvisit child path hchild log
      rw [Plan.run_visit _ _ _ _ _ hreturns]
      rcases hrun : visit.run (cursor.descend child path, log) with ⟨result, after, log'⟩
      rw [hrun] at hfirst
      cases result with
      | error fault =>
          constructor
          · intro hok
            cases hok
          · rintro ⟨-, hall⟩
            have hprints := hall path List.mem_cons_self child hchild
            rw [← hfirst] at hprints
            cases hprints
      | ok doc =>
          refine (ih doc log').trans ?_
          constructor
          · rintro ⟨hends, hrest⟩
            refine ⟨hends, ?_⟩
            intro path' hpath' child' hchild'
            rcases List.mem_cons.1 hpath' with rfl | hpath'
            · have hsame : child = child' := by
                rw [hchild] at hchild'
                exact Except.ok.inj hchild'
              rw [← hsame, ← hfirst]
              rfl
            · exact hrest path' hpath' child' hchild'
          · rintro ⟨hends, hall⟩
            exact ⟨hends, fun path' hpath' => hall path' (List.mem_cons_of_mem _ hpath')⟩

end Print

namespace Node

open Print

theorem print_isOk_iff_children (node : Node) :
    node.print.result.isOk = true ↔
      node.fits = true ∧ ∀ path ∈ node.readPaths, ∀ child, node.childAt path = .ok child →
        child.print.result.isOk = true := by
  obtain ⟨height, hheight⟩ := Nat.exists_eq_succ_of_ne_zero (Nat.ne_of_gt node.height_pos)
  have hprint : node.print.result = ((within (height + 1)).run (Cursor.ofRoot node, #[])).1 := by
    rw [show height + 1 = node.height from hheight.symm]
    rfl
  have hroot : (Cursor.ofRoot node).node = node := rfl
  rw [hprint, run_within_succ, hroot]
  cases hkind : node.kind with
  | scanner event =>
      have hpaths : node.readPaths = [] := by rw [readPaths, hkind]
      have hfits : node.fits = node.literal?.isSome := by rw [fits, hkind]
      dsimp only
      rw [run_located, isOk_mapError, run_literal, hpaths, hfits, hroot]
      cases node <;> simp [literal?, Except.isOk, Except.toBool]
  | parser event =>
      have hpaths : node.readPaths = node.readPathsAs event := by rw [readPaths, hkind]
      have hfits : node.fits = node.fitsAs event := by rw [fits, hkind]
      obtain ⟨plan, hplan, hrun⟩ := rule_plans node event
      have hvisit : ∀ child path, node.childAt path = .ok child → ∀ log,
          ((within height).run ((Cursor.ofRoot node).descend child path, log)).1.isOk =
            child.print.result.isOk := by
        intro child path hchild log
        have hlower := height_childAt_lt hchild
        exact @within_isOk height ((Cursor.ofRoot node).descend child path)
          (by rw [Cursor.node_descend]; omega) log
      have hrule := hrun _ (within_returns height) (Cursor.ofRoot node)
      dsimp only at hrule ⊢
      rw [run_located, isOk_mapError, hrule _ rfl, hpaths, hfits]
      exact hplan.isOk_iff (within_returns height) hvisit _
  | other name =>
      have hpaths : node.readPaths = [] := by rw [readPaths, hkind]
      have hfits : node.fits = true := by rw [fits, hkind]
      rw [hpaths]
      exact ⟨fun _ => ⟨hfits, by simp⟩, fun _ => rfl⟩

/-- A tree prints if and only if all nodes that the rules read have what is asked for. -/
theorem print_isOk_iff (root : Node) :
    root.print.result.isOk = true ↔
      ∀ position node, root.Reads position → root.nodeAt? position = some node →
        node.fits = true := by
  constructor
  · intro hok position node hreads hnode
    induction hreads with
    | here root =>
        cases hnode
        exact ((print_isOk_iff_children _).1 hok).1
    | inside hpath hchild _ ih =>
        rw [nodeAt?_cons hchild] at hnode
        exact ih (((print_isOk_iff_children _).1 hok).2 _ hpath _ hchild) hnode
  · intro hall
    induction hsize : root.height using Nat.strongRecOn generalizing root with
    | _ size ih =>
        refine (print_isOk_iff_children root).2 ⟨hall [] root (.here root) rfl, ?_⟩
        intro path hpath child hchild
        apply ih child.height (hsize ▸ height_childAt_lt hchild) child _ rfl
        intro position node hreads hnode
        exact hall (path :: position) node (.inside hpath hchild hreads)
          (by rw [nodeAt?_cons hchild, hnode])

end Node

end TreeFormat
