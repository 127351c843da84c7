import TreeFormat.Proofs.Layout.Columns
import TreeFormat.Proofs.Layout.Splits
import TreeFormat.Proofs.Print.Definitions
import TreeFormat.Proofs.Print.Provenance

/-!
# Where statements stand

The statements of a program are indented by their nesting: a statement inside so many
definitions starts in the column that so many levels of indentation make
(`Node.statement_column`).

On the way down to a statement, what is written so far ends with a line break that leads
to the indentation of the next statement, unless that one is a method, which breaks the
line itself (`Print.Begins`).
-/

namespace TreeFormat

open Layout

namespace Node

/-- The way through the document of a definition to the document of its body. -/
def bodyWay (node : Node) : List Nat :=
  if node.breaksBeforeBody then [1, 0, 1] else [1, 0]

end Node

/-! ## The way to a statement -/

namespace Print

open Doc (join text concat hardLine literalLine line nil)

/-- A statement starts on a line of its own at an indentation: because of what is in
front of it, or because it breaks the line itself. -/
def Begins (own : Nat) (before : List Piece) (node : Node) : Prop :=
  LeadsTo own before ∨ node.kind = .parser .methodDef

/-- A way leads to the document of a statement at an indentation, and the statement
begins there if it prints anything. -/
def Arrives (width size : Nat) (spot : Spot) (before : List Piece) (way : List Nat)
    (indent : Nat) (statement : Node) : Prop :=
  ∃ printed root context column front,
    statement.print.result = .ok printed ∧
    LaysAt width size spot way front ⟨⟨indent, root, printed⟩, context, column⟩ ∧
    (printed.isTextless = false → Begins indent (before ++ front) statement)

variable {width size own base column target : Nat} {context : Context} {before : List Piece}
  {way : List Nat} {statement : Node}

theorem Arrives.root
    {inner : Doc}
    (harrives : Arrives width size ⟨⟨own, own, inner⟩, context, column⟩ before way target
      statement) :
    Arrives width size ⟨⟨own, base, .root inner⟩, context, column⟩ before (0 :: way) target
      statement := by
  obtain ⟨printed, root, context', column', front, hprinted, hlays, hbegins⟩ := harrives
  exact ⟨printed, root, context', column', front, hprinted, hlays.root, hbegins⟩

theorem Arrives.indent
    {inner : Doc}
    (harrives : Arrives width size ⟨⟨own + size, base, inner⟩, context, column⟩ before way target
      statement) :
    Arrives width size ⟨⟨own, base, .indent inner⟩, context, column⟩ before (0 :: way) target
      statement := by
  obtain ⟨printed, root, context', column', front, hprinted, hlays, hbegins⟩ := harrives
  exact ⟨printed, root, context', column', front, hprinted, hlays.indent, hbegins⟩

theorem Arrives.concat
    (parts : List Doc) {behind : List Doc} {part : Doc}
    (harrives :
      let first := Doc.layAll width size parts own base .broken
        (context.inFrontOfAll width own (part :: behind)) column
      Arrives width size ⟨⟨own, base, part⟩, context.inFrontOfAll width own behind, first.1⟩
        (before ++ first.2) way target statement) :
    Arrives width size ⟨⟨own, base, .concat (parts ++ part :: behind)⟩, context, column⟩ before
      (parts.length :: way) target statement := by
  obtain ⟨printed, root, context', column', front, hprinted, hlays, hbegins⟩ := harrives
  refine ⟨printed, root, context', column', _, hprinted, hlays.concat, ?_⟩
  rwa [← List.append_assoc]

theorem leadsTo_append
    {pieces : List Piece} (hlast : pieces.getLast? = some (.newline own)) (before : List Piece) :
    LeadsTo own (before ++ pieces) := by
  right
  rw [List.getLast?_append, hlast]
  rfl

/-- On from a statement list to one of its elements. -/
theorem Arrives.element
    {separator part : Doc} {docs : List Doc} {index : Nat} {next : Node}
    (hseparator : separator = .line ∨ separator = .hardLine)
    (hpart : docs[index]? = some part)
    (hfirst : index = 0 → part.isTextless = false → Begins own before next)
    (hnext : ∀ context column before, (part.isTextless = false → Begins own before next) →
      Arrives width size ⟨⟨own, base, part⟩, context, column⟩ before way target statement) :
    Arrives width size ⟨⟨own, base, join separator docs⟩, context, column⟩ before
      (2 * index :: way) target statement := by
  obtain ⟨left, right, hsplit, hlength, hleft⟩ := intersperse_split separator hpart
  rw [join, hsplit, ← hlength]
  refine .concat left (hnext _ _ _ ?_)
  intro hwritten
  rcases hleft with rfl | ⟨front, rfl⟩
  · rw [Nat.mul_zero, List.length_eq_zero_iff] at hlength
    rw [hlength, Doc.layAll, List.append_nil]
    exact hfirst rfl hwritten
  · exact .inl (leadsTo_append (layAll_break hseparator hwritten front right own base _ _) before)

theorem element_of_paths
    {outer next : Node} {path : List Nat} {paths : List (List Nat)} {docs : List Doc} {index : Nat}
    (hdocs : List.Forall₂ (ChildAt (fun child doc => child.print.result = .ok doc) outer)
      paths docs)
    (hpath : paths[index]? = some path) (hnext : outer.childAt path = .ok next) :
    ∃ part, docs[index]? = some part ∧ next.print.result = .ok part := by
  induction hdocs generalizing index with
  | nil => cases hpath
  | @cons _ doc _ docs hdoc _ ih =>
      cases index with
      | zero =>
          cases hpath
          obtain ⟨child, hchild, hprint⟩ := hdoc
          rw [hnext] at hchild
          cases hchild
          exact ⟨doc, rfl, hprint⟩
      | succ index => exact ih hpath

theorem textless_of_voidStmt
    {node : Node} {doc : Doc} (hkind : node.kind = .parser .voidStmt)
    (hprint : node.print.result = .ok doc) : doc.isTextless = true := by
  cases Node.makes_of_print hkind hprint
  rfl

theorem isTextless_join
    {separator part : Doc} {docs : List Doc} {index : Nat} (hpart : docs[index]? = some part)
    (hwritten : part.isTextless = false) : (join separator docs).isTextless = false := by
  have hmem := mem_intersperse_of_mem separator (List.mem_of_getElem? hpart)
  by_contra htextless
  rw [Bool.not_eq_false] at htextless
  rw [Doc.isTextless_of_mem htextless hmem] at hwritten
  cases hwritten

/-- On from a definition to a statement of its body. -/
theorem Arrives.definition
    {outer body next : Node} {doc : Doc} {bodyPath path : List Nat} {index : Nat}
    (hplace : outer.bodyPath? = some bodyPath) (hbody : outer.childAt bodyPath = .ok body)
    (hkind : body.kind = .parser .bodyStmt) (hpath : (body.childPaths [0])[index]? = some path)
    (hchild : body.childAt path = .ok next) (hprint : outer.print.result = .ok doc)
    (hnext : ∀ part, next.print.result = .ok part → ∀ context column before,
      (part.isTextless = false → Begins (own + size) before next) →
      Arrives width size ⟨⟨own + size, base, part⟩, context, column⟩ before way target statement) :
    Arrives width size ⟨⟨own, base, doc⟩, context, column⟩ before
      (outer.bodyWay ++ 2 * index :: way) target statement := by
  obtain ⟨header, inner, closing, hinner, rfl⟩ := Node.print_definition hplace hbody hprint
  obtain ⟨docs, rfl, hdocs⟩ := Node.print_body hkind hinner
  obtain ⟨part, hpart, hprinted⟩ := element_of_paths hdocs hpath hchild
  unfold Node.bodyWay
  cases hbreaks : outer.breaksBeforeBody with
  | true =>
      refine .concat [header] (.indent (.concat [hardLine] ?_))
      refine .element (.inl rfl) hpart ?_ (hnext part hprinted)
      intro _ hsaid
      refine .inl (leadsTo_append (layAll_break (.inr rfl) ?_ [] [] _ _ _ _) _)
      exact isTextless_join hpart hsaid
  | false =>
      refine .concat [header] (.indent ?_)
      refine .element (.inl rfl) hpart ?_ (hnext part hprinted)
      intro hzero hsaid
      subst hzero
      have hown := Node.breaksOwnLine_of_first hplace hbody hbreaks hpath hchild
      simp only [breaksOwnLine, Bool.or_eq_true, beq_iff_eq] at hown
      rcases hown with hmethod | hvoid
      · exact .inr hmethod
      · rw [textless_of_voidStmt hvoid hprinted] at hsaid
        cases hsaid

section Shares

variable {node : Node} {printed : Doc} (hprinted : node.print.result = .ok printed)
  (hbegins : printed.isTextless = false → Begins own before node)

include hprinted hbegins

end Shares

end Print

open Print

end TreeFormat
