import TreeFormat.Proofs.Format
import TreeFormat.Proofs.Layout.Bridges
import TreeFormat.Proofs.Print.Beginnings

/-!
# Fixed separators

An expression writes its operands with a fixed separator between them: a space, a comma, an
operator or a connector.  A separator never breaks the line.  What follows it is what the
operand behind it begins with (`Node.separator_joined`), so the first text of the operand is
on the line of the separator unless the operand itself puts a line break in front of it.

An operand does so only if a method, a module or a list of statements comes first in it.
Methods and modules always do: they begin on a line of their own wherever they stand.
-/

namespace TreeFormat

open Layout

/-- Whether the rule of a kind writes operands with a fixed separator. -/
def ParserEvent.separates : ParserEvent → Bool
  | .aliasPair | .argsAddBlock | .assign | .binary | .call | .command => true
  | _ => false

namespace Node

open Print

/-- The slot paths of the operands of an expression, and what is written between two of
them. -/
def separated? (node : Node) : Option (List (List Nat) × List Leaf) :=
  match node.kind with
  | .parser .aliasPair | .parser .command => some (node.childPaths [], [.text " "])
  | .parser .argsAddBlock => some (node.childPaths [0], [.text ", "])
  | .parser .assign => some (node.childPaths [], [.text " = "])
  | .parser .binary =>
    match node.tokenAt [1] with
    | .ok operator => some ([[0], [2]], [.text " ", .text operator, .text " "])
    | .error _ => none
  | .parser .call =>
    match node.tokenAt [1] with
    | .ok connector => some ([[0], [2]], [.text connector])
    | .error _ => none
  | _ => none

/-- A method, a module or a list of statements is printed with a node. -/
def HasOpener (node : Node) : Prop :=
  ∃ position opener event, node.Reads position ∧ node.nodeAt? position = some opener ∧
    opener.kind = .parser event ∧ event.opensLine = true

/-- A separator in the layout of a document, and the first text of the operand behind it.
There is something in between if and only if the operand does not begin with the text. -/
structure Joined (settings : Settings) (whole : Doc) (ahead separator : List Leaf)
    (operand : Node) (content : String) (before mark gap after : List Piece) : Prop where
  piecesBefore : PiecesOf ahead before
  piecesMark : PiecesOf separator mark
  follows : Follows settings whole before mark gap content after
  adjacent : gap = [] ↔ operand.first? = some (.text content)
  forced : operand.first? = some .hardLine → ∃ indent, .newline indent ∈ gap
  opener : gap ≠ [] → operand.HasOpener

/-- Wherever a node is printed, an operand in it is joined to the separator in front of it:
inside every document, and in the formatted text of every tree that prints. -/
structure PrintsJoined (settings : Settings) (node : Node) (doc : Doc)
    (ahead separator : List Leaf) (operand : Node) (content : String) : Prop where
  inside : ∀ outside : Doc.Surroundings, ∃ before mark gap after,
    Joined settings (outside.fill doc) (outside.leavesAhead ++ ahead) separator operand content
      before mark gap after
  formatted : ∀ (root : Node) (whole : Doc) (position : Position),
    root.print.result = .ok whole → root.Reads position → root.nodeAt? position = some node →
      (root.format settings).result = .ok (tidy (render settings whole)) ∧
      ∃ front before mark gap after,
        Joined settings whole (front ++ ahead) separator operand content before mark gap after

end Node

namespace Print

variable {node : Node} {event : ParserEvent} {doc : Doc} {operands : List (List Nat)}
  {separator : List Leaf}

theorem exists_separated
    (hkind : node.kind = .parser event) (hevent : event.separates = true)
    (hprint : node.print.result = .ok doc) :
    ∃ operands separator, node.separated? = some (operands, separator) := by
  have hmakes := Node.makes_of_print hkind hprint
  unfold Node.separated?
  rw [hkind]
  cases event with
  | aliasPair => exact ⟨_, _, rfl⟩
  | argsAddBlock => exact ⟨_, _, rfl⟩
  | assign => exact ⟨_, _, rfl⟩
  | command => exact ⟨_, _, rfl⟩
  | binary =>
      cases hmakes with
      | binary hoperator => exact ⟨_, _, by rw [hoperator]⟩
  | call =>
      cases hmakes with
      | call hconnector => exact ⟨_, _, by rw [hconnector]⟩
  | _ => cases hevent

/-- The separators are texts, and the outline has them between the operands. -/
theorem outline_of_separated
    (hkind : node.kind = .parser event)
    (hseparated : node.separated? = some (operands, separator)) :
    (∀ leaf ∈ separator, leaf.text?.isSome) ∧
      ∃ front back, node.outlineAs event =
        front ++ Part.children (separator.map .fixed) operands ++ back := by
  unfold Node.separated? at hseparated
  rw [hkind] at hseparated
  cases event with
  | aliasPair =>
      cases hseparated
      exact ⟨by simp [Leaf.text?], [.text "alias "], [], by simp [Node.outlineAs, Part.text]⟩
  | argsAddBlock =>
      cases hseparated
      exact ⟨by simp [Leaf.text?], [], (node.pathIfPresent [1]).map .child, rfl⟩
  | assign =>
      cases hseparated
      exact ⟨by simp [Leaf.text?], [], [], by simp [Node.outlineAs, Part.text]⟩
  | command =>
      cases hseparated
      exact ⟨by simp [Leaf.text?], [], [], by simp [Node.outlineAs, Part.text]⟩
  | binary =>
      cases htoken : node.tokenAt [1] with
      | error fault => simp [htoken] at hseparated
      | ok operator =>
          simp only [htoken, Option.some.injEq, Prod.mk.injEq] at hseparated
          obtain ⟨rfl, rfl⟩ := hseparated
          refine ⟨by simp [Leaf.text?], [], [], ?_⟩
          rw [Node.outlineAs, Node.infixParts, htoken]
          rfl
  | call =>
      cases htoken : node.tokenAt [1] with
      | error fault => simp [htoken] at hseparated
      | ok connector =>
          simp only [htoken, Option.some.injEq, Prod.mk.injEq] at hseparated
          obtain ⟨rfl, rfl⟩ := hseparated
          refine ⟨by simp [Leaf.text?], [], [], ?_⟩
          rw [Node.outlineAs, Node.infixParts, htoken]
          rfl
  | _ => cases hseparated

theorem children_neighbours
    {first second : List Nat} (hnext : [first, second] <:+: operands) (marks : List Part) :
    ∃ front back, Part.children marks operands =
      front ++ .child first :: (marks ++ .child second :: back) := by
  obtain ⟨left, right, rfl⟩ := hnext
  obtain ⟨front, back, hrow⟩ := intersperse_neighbours marks [Part.child first] [.child second]
    (left.map fun path => [.child path]) (right.map fun path => [.child path])
  refine ⟨front.flatten, back.flatten, ?_⟩
  simp only [Part.children, Part.row, List.map_append, List.map_cons,
    List.append_assoc, List.cons_append, List.nil_append, hrow, List.flatten_append,
    List.flatten_cons]

/-- What fills two neighbours has the separator between them. -/
theorem exists_neighbours
    {prints : Node → Doc → Prop} {front back : List Part} {first second : List Nat}
    {leaves : List Leaf} (hnext : [first, second] <:+: operands)
    (hfills : Fills prints node
      (front ++ Part.children (separator.map .fixed) operands ++ back) leaves) :
    ∃ left right ahead behind,
      ChildAt prints node first left ∧ ChildAt prints node second right ∧
      leaves = (ahead ++ left.leaves) ++ separator ++ right.leaves ++ behind := by
  obtain ⟨left, right, hchildren⟩ := children_neighbours hnext (separator.map Part.fixed)
  rw [hchildren] at hfills
  obtain ⟨_, behind, rfl, hupTo, -⟩ := hfills.split
  obtain ⟨ahead, _, rfl, -, hrow⟩ := hupTo.split
  obtain ⟨ahead', _, rfl, -, hpair⟩ := hrow.split
  cases hpair with
  | @child _ leftDoc _ _ hleft hrest =>
      obtain ⟨marks, _, rfl, hmarks, hlast⟩ := hrest.split
      obtain rfl := hmarks.eq_of_fixed
      cases hlast with
      | @child _ rightDoc _ leaves hright _ =>
          refine ⟨leftDoc, rightDoc, ahead ++ ahead', leaves ++ behind, hleft, hright, ?_⟩
          simp only [List.append_assoc]

/-- Wherever an operand and the separator in front of it are laid out, they are joined. -/
theorem joined_of_leaves
    {operand : Node} {part whole : Doc} {ahead behind : List Leaf} {content : String}
    (hoperand : operand.print.result = .ok part)
    (hcontent : firstText? part.leaves = some content)
    (hseparator : ∀ leaf ∈ separator, leaf.text?.isSome)
    (hwhole : whole.leaves = ahead ++ separator ++ part.leaves ++ behind) (settings : Settings) :
    ∃ before mark gap after,
      Node.Joined settings whole ahead separator operand content before mark gap after := by
  obtain ⟨before, mark, gap, after, hbefore, hmark, hgap, hfollows⟩ :=
    exists_follows hwhole hseparator hcontent settings
  have hhead := Node.first?_of_print hoperand
  rw [PiecesOf, filter_leadIn] at hgap
  rcases head?_of_firstText? hcontent with ⟨hlead, hfirst⟩ | ⟨leaf, lead, hlead, htext, hfirst⟩
  · rw [hlead] at hgap
    rw [hfirst] at hhead
    cases hgap
    refine ⟨before, mark, [], after, hbefore, hmark, hfollows, iff_of_true rfl hhead, ?_, ?_⟩
    · intro hforced
      rw [hhead] at hforced
      cases hforced
    · exact fun hne => absurd rfl hne
  · rw [hlead] at hgap
    rw [hfirst] at hhead
    cases hgap with
    | @cons _ piece _ gap hpiece _ =>
        refine ⟨before, mark, piece :: gap, after, hbefore, hmark, hfollows, ?_, ?_, ?_⟩
        · refine iff_of_false (List.cons_ne_nil _ _) ?_
          intro hsame
          rw [hhead] at hsame
          cases hsame
          cases htext
        · intro hforced
          rw [hhead] at hforced
          cases hforced
          cases piece with
          | text said => cases hpiece
          | space => cases hpiece
          | newline indent => exact ⟨indent, List.mem_cons_self⟩
        · exact fun _ => Node.exists_opener hhead htext

theorem printsJoined_of_leaves
    {operand : Node} {part : Doc} {ahead behind : List Leaf} {content : String}
    (hprint : node.print.result = .ok doc) (hoperand : operand.print.result = .ok part)
    (hcontent : firstText? part.leaves = some content)
    (hseparator : ∀ leaf ∈ separator, leaf.text?.isSome)
    (hleaves : doc.leaves = ahead ++ separator ++ part.leaves ++ behind) (settings : Settings) :
    node.PrintsJoined settings doc ahead separator operand content := by
  have hjoined : ∀ (whole : Doc) (front back : List Leaf),
      whole.leaves = front ++ doc.leaves ++ back → ∃ before mark gap after,
        Node.Joined settings whole (front ++ ahead) separator operand content before mark gap
          after := by
    intro whole front back hwhole
    refine @joined_of_leaves _ operand part whole _ (behind ++ back) content hoperand hcontent
      hseparator ?_ settings
    rw [hwhole, hleaves]
    simp only [List.append_assoc]
  constructor
  · intro outside
    exact hjoined _ _ _ (Doc.Surroundings.leaves_fill outside doc)
  · intro root whole position hroot hreads hnode
    constructor
    · rw [Node.format_result, hroot]
    · obtain ⟨found, hfound, outside, -, hwhole⟩ := Node.contains_of_reads hroot hreads hnode
      rw [hprint] at hfound
      cases hfound
      rw [Doc.Surroundings.leaves_fill] at hwhole
      exact ⟨outside.leavesAhead, hjoined _ _ _ hwhole⟩

/-- A method or a module begins on a line of its own. -/
theorem first?_of_forced
    (hkind : node.kind = .parser .methodDef ∨ node.kind = .parser .moduleDef) :
    node.first? = some .hardLine := by
  obtain ⟨height, hheight⟩ := Nat.exists_eq_succ_of_ne_zero (Nat.ne_of_gt node.height_pos)
  rw [Node.first?, hheight, Node.firstWithin, Node.outline]
  rcases hkind with hkind | hkind
  · rw [hkind]
    rfl
  · rw [hkind]
    rfl

end Print

open Print

/-- Between two neighbouring operands of an expression the separator stands right in front of
what the second one begins with, inside every document and at every width and indentation
size.  If this is a text, then the text follows on the line of the separator.  Only an
operand that puts a line break in front of everything else is cut off from the separator.
This holds wherever the expression is read in a tree that prints, for the layout and for the
formatted text. -/
theorem Node.separator_joined
    {node : Node} {event : ParserEvent} {doc : Doc} (hkind : node.kind = .parser event)
    (hevent : event.separates = true) (hprint : node.print.result = .ok doc)
    (settings : Settings) :
    ∃ operands separator, node.separated? = some (operands, separator) ∧
      ∀ first second, [first, second] <:+: operands →
        ∃ left right leftDoc rightDoc ahead behind,
          node.childAt first = .ok left ∧ left.print.result = .ok leftDoc ∧
          node.childAt second = .ok right ∧ right.print.result = .ok rightDoc ∧
          doc.leaves = (ahead ++ leftDoc.leaves) ++ separator ++ rightDoc.leaves ++ behind ∧
          ∀ content, firstText? rightDoc.leaves = some content →
            node.PrintsJoined settings doc (ahead ++ leftDoc.leaves) separator right content := by
  obtain ⟨operands, separator, hseparated⟩ := exists_separated hkind hevent hprint
  obtain ⟨htexts, front, back, houtline⟩ := outline_of_separated hkind hseparated
  have hfills := (makes_of_print hkind hprint).fills
  rw [houtline] at hfills
  refine ⟨operands, separator, hseparated, ?_⟩
  intro first second hnext
  obtain ⟨leftDoc, rightDoc, ahead, behind, ⟨left, hleft, hleftDoc⟩, ⟨right, hright, hrightDoc⟩,
    hleaves⟩ := exists_neighbours hnext hfills
  refine ⟨left, right, leftDoc, rightDoc, ahead, behind, hleft, hleftDoc, hright, hrightDoc,
    hleaves, ?_⟩
  intro content hcontent
  exact printsJoined_of_leaves hprint hrightDoc hcontent htexts hleaves settings

/-- A sum among the statements of a program.  The second operand begins with its name. -/
theorem Node.separator_joined_sum :
    let second : Node := .leaf (.scanner .ident) "b"
    let sum : Node := .branch (.parser .binary)
      [.node (.leaf (.scanner .ident) "a"), .token "+", .node second]
    let root : Node := .branch (.parser .program) [.list [.node sum]]
    sum.separated? = some ([[0], [2]], [.text " ", .text "+", .text " "]) ∧
      (root.format {}).result.toOption = some "a + b\n" ∧
      ∃ whole ahead before mark after, root.print.result = .ok whole ∧
        Joined {} whole ahead [.text " ", .text "+", .text " "] second "b" before mark []
          after := by
  intro second sum root
  obtain ⟨whole, hwhole⟩ : ∃ whole, root.print.result = .ok whole := ⟨_, rfl⟩
  obtain ⟨doc, hdoc⟩ : ∃ doc, sum.print.result = .ok doc := ⟨_, rfl⟩
  have hseparated : sum.separated? = some ([[0], [2]], [.text " ", .text "+", .text " "]) := rfl
  have hreads : root.Reads [[0, 0]] := .inside (by decide +kernel) rfl (.here sum)
  obtain ⟨operands, separator, hfound, hjoined⟩ :=
    @Node.separator_joined sum .binary doc rfl rfl hdoc {}
  rw [hseparated] at hfound
  cases hfound
  obtain ⟨left, right, leftDoc, rightDoc, ahead, behind, hleft, -, hright, hrightDoc, -, hall⟩ :=
    hjoined [0] [2] (List.infix_refl _)
  cases hright
  cases hrightDoc
  obtain ⟨-, front, before, mark, gap, after, hpair⟩ :=
    (hall "b" (by decide)).formatted root whole _ hwhole hreads rfl
  obtain rfl : gap = [] := hpair.adjacent.2 (by decide +kernel)
  exact ⟨hseparated, by decide +kernel, whole, _, before, mark, after, hwhole, hpair⟩

/-- A method behind the name of a command.  Both operands print text, and the method puts a
line break behind the separator. -/
theorem Node.separator_cut_off :
    let method : Node := .branch (.parser .methodDef) [
      .node (.leaf (.scanner .ident) "foo"),
      .node (.branch (.parser .params) []),
      .node (.branch (.parser .bodyStmt) [.list []])]
    let command : Node := .branch (.parser .command)
      [.node (.leaf (.scanner .ident) "private"), .node method]
    let root : Node := .branch (.parser .program) [.list [.node command]]
    command.separated? = some ([[0], [1]], [.text " "]) ∧
      (method.print.result.toOption.bind fun doc => firstText? doc.leaves) = some "def " ∧
      method.first? = some .hardLine ∧
      root.print.result.toOption.map (pieces {}) =
        some [.text "private", .text " ", .newline 0, .text "def ", .text "foo", .newline 0,
          .newline 0, .text "end"] ∧
      (root.format {}).result.toOption = some "private \ndef foo\n\nend\n" := by
  intro method command root
  exact ⟨rfl, by decide +kernel, first?_of_forced (.inl rfl), by decide +kernel,
    by decide +kernel⟩

end TreeFormat
