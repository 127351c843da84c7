import TreeFormat.Proofs.Format
import TreeFormat.Proofs.Layout.Steady
import TreeFormat.Proofs.Print.Definitions

/-!
# Bodies in place

A body separates its statements by lines, and a line is a space if it is laid out flat
in a group.  Where every body belongs to a class, a module or a method, or is the whole
tree, that never happens: a definition breaks lines on its own, so no group around it is
flat.  Such trees print to steady documents (`Node.steady_of_print`) and the width has
no say in how they are formatted (`Node.format_width_irrelevant`).
-/

namespace TreeFormat

namespace Node

/-- Every body that is read is the root or the body of a definition. -/
def BodiesInPlace (root : Node) : Prop :=
  ∀ position body, root.Reads position → root.nodeAt? position = some body →
    body.kind = .parser .bodyStmt →
      position = [] ∨ ∃ above definition path, position = above ++ [path] ∧
        root.nodeAt? above = some definition ∧ definition.bodyPath? = some path

namespace BodiesInPlace

variable {node child : Node} {path : List Nat}

theorem descend
    (hbodies : node.BodiesInPlace) (hpath : path ∈ node.readPaths)
    (hchild : node.childAt path = .ok child) : child.BodiesInPlace := by
  intro position body hreads hbody hkind
  have hbelow : node.nodeAt? (path :: position) = some body := by rw [nodeAt?_cons hchild, hbody]
  rcases hbodies _ body (.inside hpath hchild hreads) hbelow hkind with hroot | hplace
  · cases hroot
  · obtain ⟨above, definition, last, hposition, hdefinition, hlast⟩ := hplace
    cases above with
    | nil =>
        obtain ⟨-, rfl⟩ := List.cons.inj hposition
        exact .inl rfl
    | cons first above =>
        obtain ⟨rfl, rfl⟩ := List.cons.inj hposition
        rw [nodeAt?_cons hchild] at hdefinition
        exact .inr ⟨above, definition, last, rfl, hdefinition, hlast⟩

theorem bodyPath
    (hbodies : node.BodiesInPlace) (hpath : path ∈ node.readPaths)
    (hchild : node.childAt path = .ok child) (hkind : child.kind = .parser .bodyStmt) :
    node.bodyPath? = some path := by
  have hbelow : node.nodeAt? [path] = some child := nodeAt?_cons hchild []
  rcases hbodies _ child (.inside hpath hchild (.here child)) hbelow hkind with hroot | hplace
  · cases hroot
  · obtain ⟨above, definition, last, hposition, hdefinition, hlast⟩ := hplace
    cases above with
    | nil =>
        obtain ⟨rfl, -⟩ := List.cons.inj hposition
        cases hdefinition
        exact hlast
    | cons first above => simp at hposition

/-- Bodies are in place if they are below the children of a node and none of the
children is one in a wrong place. -/
theorem of_children
    (hchildren : ∀ path ∈ node.readPaths, ∀ child, node.childAt path = .ok child →
      child.BodiesInPlace ∧
        (child.kind = .parser .bodyStmt → node.bodyPath? = some path)) :
    node.BodiesInPlace := by
  intro position body hreads hbody hkind
  cases hreads with
  | here => exact .inl rfl
  | @inside _ child path rest hpath hchild hreads =>
      obtain ⟨hbelow, hown⟩ := hchildren path hpath child hchild
      rw [nodeAt?_cons hchild] at hbody
      refine .inr ?_
      rcases hbelow rest body hreads hbody hkind with rfl | hplace
      · cases hbody
        exact ⟨[], node, path, rfl, rfl, hown hkind⟩
      · obtain ⟨above, definition, last, rfl, hdefinition, hlast⟩ := hplace
        refine ⟨path :: above, definition, last, rfl, ?_, hlast⟩
        rw [nodeAt?_cons hchild, hdefinition]

end BodiesInPlace

end Node

/-! ## Steady documents -/

namespace Print

open Doc (join text concat hardLine literalLine line nil)

/-- A document that is steady also as the content of a group. -/
def Firm (doc : Doc) : Prop :=
  doc.Forced ∧ doc.Steady

theorem forced_of_lineless {doc : Doc} (hline : .line ∉ doc.leaves) : doc.Forced :=
  fun hmem => absurd hmem hline

theorem firm_closed : Closed Firm where
  nil := ⟨forced_of_lineless (by simp [Doc.leaves]), trivial⟩
  text content := ⟨forced_of_lineless (by simp [Doc.leaves]), trivial⟩
  hardLine := ⟨forced_of_lineless (by simp [Doc.leaves]), trivial⟩
  empty := ⟨forced_of_lineless (by simp), trivial⟩
  snoc := by
    intro parts part hparts hpart
    refine ⟨?_, ?_⟩
    · intro hline
      have hleaves : (concat (parts ++ [part])).leaves = (concat parts).leaves ++ part.leaves := by
        simp
      rw [hleaves, List.mem_append] at hline
      rw [hleaves]
      rcases hline with hline | hline
      · obtain ⟨leaf, hleaf, hbreak⟩ := hparts.1 hline
        exact ⟨leaf, List.mem_append_left _ hleaf, hbreak⟩
      · obtain ⟨leaf, hleaf, hbreak⟩ := hpart.1 hline
        exact ⟨leaf, List.mem_append_right _ hleaf, hbreak⟩
    · have hsteady := hparts.2
      rw [Doc.Steady, Doc.allSteady_iff] at hsteady ⊢
      rw [List.forall_mem_append, List.forall_mem_singleton]
      exact ⟨hsteady, hpart.2⟩
  group := fun hinner => ⟨hinner.1, hinner⟩
  root := fun hinner => hinner

theorem steady_concat {parts : List Doc} (hparts : ∀ part ∈ parts, part.Steady) :
    (concat parts).Steady := by
  rw [Doc.Steady, Doc.allSteady_iff]
  exact hparts

/-- What printing makes of trees with their bodies in place.  A body itself leaves its
lines to the definition around it. -/
def PrintsFirm (node : Node) (doc : Doc) : Prop :=
  node.BodiesInPlace → doc.Steady ∧ (node.kind ≠ .parser .bodyStmt → doc.Forced)

section Rules

variable {node : Node} {event : ParserEvent} {doc : Doc}

theorem firm_child
    (hkind : node.kind = .parser event) (hbodies : node.BodiesInPlace) {path : List Nat}
    (hpath : path ∈ node.readPathsAs event) (hplace : node.bodyPath? ≠ some path)
    (hdoc : ChildAt PrintsFirm node path doc) : Firm doc := by
  obtain ⟨child, hchild, hprints⟩ := hdoc
  have hread : path ∈ node.readPaths := by rwa [Node.readPaths, hkind]
  have hfirm := hprints (hbodies.descend hread hchild)
  exact ⟨hfirm.2 fun hbody => hplace (hbodies.bodyPath hread hchild hbody), hfirm.1⟩

theorem steady_child
    (hkind : node.kind = .parser event) (hbodies : node.BodiesInPlace) {path : List Nat}
    (hpath : path ∈ node.readPathsAs event) (hdoc : ChildAt PrintsFirm node path doc) :
    doc.Steady := by
  obtain ⟨child, hchild, hprints⟩ := hdoc
  have hread : path ∈ node.readPaths := by rwa [Node.readPaths, hkind]
  exact (hprints (hbodies.descend hread hchild)).1

theorem firm_end : Firm (hardLine ++ text "end") :=
  firm_closed.append firm_closed.hardLine (firm_closed.text "end")

theorem steady_of_wraps {doc inner : Doc} (hwraps : Wraps doc inner) (hinner : Firm inner) :
    doc.Steady := by
  rcases hwraps with rfl | rfl
  · exact hinner.2
  · exact hinner

/-- A definition is firm whatever lines its body leaves open: it breaks the line in front
of its end. -/
theorem firm_definition
    {header body ending : Doc} {closing : List Doc} (breaks : Bool) (hheader : header.Steady)
    (hbody : body.Steady) (hending : Wraps ending (hardLine ++ text "end"))
    (hclosing : closing = [] ∨ closing = [literalLine]) :
    Firm (concat (header :: .indent (if breaks then hardLine ++ body else body) ::
      ending :: closing)) := by
  constructor
  · intro _
    refine ⟨.hardLine, ?_, rfl⟩
    rw [Doc.leaves_concat]
    simp [hending.leaves, Doc.leaves]
  · have hinner : (if breaks then hardLine ++ body else body).Steady := by
      split
      · exact steady_concat (by simpa using ⟨trivial, hbody⟩)
      · exact hbody
    have hend : ending.Steady := steady_of_wraps hending firm_end
    refine steady_concat ?_
    rcases hclosing with rfl | rfl
    · simpa using ⟨hheader, hinner, hend⟩
    · simpa using ⟨hheader, hinner, hend, trivial⟩

theorem printsFirm_of_makes
    (hkind : node.kind = .parser event) (hmakes : Makes PrintsFirm node event doc) :
    PrintsFirm node doc := by
  intro hbodies
  cases hmakes.shape hkind with
  | plain hplace hbuilds =>
      have hfirm : Firm doc := by
        refine hbuilds.closed firm_closed ?_
        intro path hpath part
        exact firm_child hkind hbodies hpath (by rw [hplace]; nofun)
      exact ⟨hfirm.2, fun _ => hfirm.1⟩
  | @body docs hdocs =>
      refine ⟨steady_concat ?_, fun hbody => absurd hkind hbody⟩
      intro part hpart
      rcases eq_or_mem_of_mem_intersperse hpart with rfl | hpart
      · trivial
      · obtain ⟨path, hpath, hchild⟩ := exists_right_of_mem hdocs.flip hpart
        exact steady_child hkind hbodies hpath hchild
  | definition hdefines =>
      cases hdefines with
      | @intro keyword bodyPath paths breaks parts _ _ _ _ _ hplace hpaths hapart _ hparts hheader
          hbody hending hclosing =>
          have hfirm : Firm (concat (breaks ++ text keyword :: parts)) := by
            refine hparts.closed firm_closed ?_
            intro path hpath part
            refine firm_child hkind hbodies (by rw [hpaths]; exact List.mem_append_left _ hpath) ?_
            rw [hplace]
            rintro ⟨⟩
            exact hapart hpath
          have hsteady := steady_child hkind hbodies (by rw [hpaths]; simp) hbody
          have hwhole := firm_definition node.breaksBeforeBody (steady_of_wraps hheader hfirm)
            hsteady hending hclosing
          exact ⟨hwhole.2, fun _ => hwhole.1⟩

end Rules

end Print

/-! ## Formatting at all widths -/

open Print

theorem Node.steady_of_print
    {root : Node} {doc : Doc} (hprint : root.print.result = .ok doc)
    (hbodies : root.BodiesInPlace) : doc.Steady := by
  have hfirm : PrintsFirm root doc := by
    refine Node.print_induction ?_ ?_ ?_ hprint
    · intro event content _
      exact ⟨trivial, fun _ => (firm_closed.text content).1⟩
    · intro node hkind _
      exact ⟨trivial, fun _ => firm_closed.nil.1⟩
    · intro node event doc hkind hmakes
      exact printsFirm_of_makes hkind hmakes
  exact (hfirm hbodies).1

/-- What is read at a position is printed in one piece. -/
theorem Node.leaves_of_reads
    {root node : Node} {doc : Doc} {position : Position} (hprint : root.print.result = .ok doc)
    (hreads : root.Reads position) (hnode : root.nodeAt? position = some node) :
    ∃ part, node.print.result = .ok part ∧ part.leaves <:+: doc.leaves := by
  obtain ⟨part, hpart, hcontains⟩ := Node.contains_of_reads hprint hreads hnode
  exact ⟨part, hpart, hcontains.leaves_isInfix⟩

/-- Where every body is the root or belongs to a definition, a tree is formatted alike at
all widths.  The statements of every body stand apart: what each of them prints is in one
piece, and there is a line break between it and the next one. -/
theorem Node.format_width_irrelevant
    {root : Node} (hbodies : ∀ doc, root.print.result = .ok doc → root.BodiesInPlace)
    (width width' size : Nat) :
    (root.format ⟨width, size⟩).result = (root.format ⟨width', size⟩).result ∧
      ∀ doc position body, root.print.result = .ok doc → root.Reads position →
        root.nodeAt? position = some body → body.kind = .parser .bodyStmt →
          ∃ docs front back before shares after,
            List.Forall₂ (ChildAt (fun statement part => statement.print.result = .ok part) body)
              (body.childPaths [0]) docs ∧
            doc.leaves = front ++ (Doc.join .line docs).leaves ++ back ∧
            (Layout.pieces ⟨width, size⟩ doc).map Layout.Run.ofPiece =
              before ++ (shares.intersperse [.newline]).flatten ++ after ∧
            List.Forall₂ Layout.Becomes (front.filter Leaf.isVisible) before ∧
            List.Forall₂ (fun part share =>
              List.Forall₂ Layout.Becomes (part.leaves.filter Leaf.isVisible) share) docs shares ∧
            List.Forall₂ Layout.Becomes (back.filter Leaf.isVisible) after := by
  constructor
  · rw [format_result, format_result]
    cases hprint : root.print.result with
    | error fault => rfl
    | ok doc =>
        have hsteady := Node.steady_of_print hprint (hbodies doc hprint)
        -- At both widths the layout is the one in which every line breaks.
        have hpieces : Layout.pieces ⟨width, size⟩ doc = Layout.pieces ⟨width', size⟩ doc := by
          rw [Layout.pieces_of_steady hsteady, Layout.pieces_of_steady hsteady]
        simp only [Layout.render, hpieces]
  · intro doc position body hprint hreads hbody hkind
    have hsteady := Node.steady_of_print hprint (hbodies doc hprint)
    obtain ⟨part, hpart, front, back, hleaves⟩ := Node.leaves_of_reads hprint hreads hbody
    obtain ⟨docs, rfl, hdocs⟩ := Node.print_body hkind hpart
    have hbreaks := Layout.breaks_pieces hsteady ⟨width, size⟩
    rw [← hleaves, List.filter_append] at hbreaks
    obtain ⟨inner, after, hruns, hinner, hafter⟩ := forall₂_append_split hbreaks
    rw [List.filter_append] at hinner
    obtain ⟨before, own, rfl, hbefore, hown⟩ := forall₂_append_split hinner
    obtain ⟨shares, rfl, hshares⟩ := Layout.exists_shares hown
    exact ⟨docs, front, back, before, shares, after, hdocs, hleaves.symm, hruns,
      hbefore.imp fun _ _ => And.left, hshares, hafter.imp fun _ _ => And.left⟩

theorem Node.format_width_irrelevant_argument :
    let body : Node := .branch (.parser .bodyStmt)
      [.list [.node (.leaf (.scanner .ident) "a"), .node (.leaf (.scanner .ident) "b")]]
    let method : Node := .branch (.parser .methodDef)
      [.node (.leaf (.scanner .ident) "foo"), .node (.branch (.parser .params) []), .node body]
    let root : Node := .branch (.parser .argsAddBlock) [.list [.node method]]
    root.print.result.isOk = true ∧ root.BodiesInPlace ∧
      (root.format ⟨1, 2⟩).result = (root.format ⟨80, 2⟩).result := by
  intro body method root
  have hbody : body.BodiesInPlace := by
    refine .of_children ?_
    have hpaths : body.readPaths = [[0, 0], [0, 1]] := by rfl
    rw [hpaths]
    intro path hpath child hchild
    simp only [List.mem_cons, List.not_mem_nil, or_false] at hpath
    rcases hpath with rfl | rfl
    · cases hchild
      exact ⟨.of_children nofun, nofun⟩
    · cases hchild
      exact ⟨.of_children nofun, nofun⟩
  have hmethod : method.BodiesInPlace := by
    refine .of_children ?_
    have hpaths : method.readPaths = [[0], [1], [2]] := by rfl
    rw [hpaths]
    intro path hpath child hchild
    simp only [List.mem_cons, List.not_mem_nil, or_false] at hpath
    rcases hpath with rfl | rfl | rfl
    · cases hchild
      exact ⟨.of_children nofun, nofun⟩
    · cases hchild
      exact ⟨.of_children nofun, nofun⟩
    · cases hchild
      exact ⟨hbody, fun _ => rfl⟩
  have hroot : root.BodiesInPlace := by
    refine .of_children ?_
    have hpaths : root.readPaths = [[0, 0]] := by rfl
    rw [hpaths]
    intro path hpath child hchild
    rw [List.mem_singleton] at hpath
    subst hpath
    cases hchild
    exact ⟨hmethod, nofun⟩
  have hprint : root.print.result.isOk = true := by decide +kernel
  exact ⟨hprint, hroot, (Node.format_width_irrelevant (fun _ _ => hroot) 1 80 2).1⟩
end TreeFormat
