import TreeFormat.Proofs.Print.Separators

/-!
# Headers of methods

The header of a method has the parameters right behind the name.  The rule puts nothing
between the two, and only a list in parentheses brings a mark of its own.  So the word behind
`def` is the name if and only if the parameters print nothing, or begin with a parenthesis,
white space or a line break (`Node.name_apart_iff`).

Parameters without parentheses that print something begin with the first of their texts, and
this is where the name runs into them.
-/

namespace TreeFormat

open Layout

/-- The characters of a leaf.  A line break or the space in its place is white space. -/
def Leaf.chars : Leaf → List Char
  | text content => content.toList
  | _ => ['\n']

/-- The characters of leaves. -/
def Layout.spelling (leaves : List Leaf) : List Char :=
  leaves.flatMap Leaf.chars

/-- Whether a character ends the name of a method. -/
def endsName (char : Char) : Bool :=
  char == '(' || char.isWhitespace

/-- The word at the front of leaves. -/
def Layout.word (leaves : List Leaf) : List Char :=
  (spelling leaves).takeWhile fun char => !endsName char

/-- Whether what a node prints can stand right behind a name: it prints nothing, or begins
with a character that ends the name. -/
def Node.beginsApart (node : Node) : Bool :=
  match node.first? with
  | none => true
  | some mark => mark.chars.head?.all endsName

namespace Print

variable {node parameters : Node} {doc : Doc}

theorem chars_eq_nil_iff {leaf : Leaf} : leaf.chars = [] ↔ leaf.isVisible = false := by
  cases leaf with
  | text content => simp [Leaf.chars, Leaf.isVisible]
  | line => simp [Leaf.chars, Leaf.isVisible]
  | hardLine => simp [Leaf.chars, Leaf.isVisible]
  | literalLine => simp [Leaf.chars, Leaf.isVisible]

/-- The first character is that of the first visible leaf. -/
theorem head?_spelling (leaves : List Leaf) :
    (spelling leaves).head? =
      (leaves.filter Leaf.isVisible).head?.bind fun leaf => leaf.chars.head? := by
  unfold spelling
  induction leaves with
  | nil => rfl
  | cons leaf leaves ih =>
      rw [List.flatMap_cons]
      cases hvisible : leaf.isVisible with
      | false =>
          rw [chars_eq_nil_iff.2 hvisible, List.nil_append, ih,
            List.filter_cons_of_neg (by simp [hvisible])]
      | true =>
          have hne : leaf.chars ≠ [] := by
            intro hnil
            rw [chars_eq_nil_iff, hvisible] at hnil
            cases hnil
          rw [List.head?_append_of_ne_nil _ hne, List.filter_cons_of_pos hvisible]
          rfl

/-- A word goes on over what comes behind it unless this begins apart. -/
theorem word_append_iff
    {front behind : List Leaf} (hfront : ∀ char ∈ spelling front, endsName char = false) :
    word (front ++ behind) = spelling front ↔ (spelling behind).head?.all endsName = true := by
  have hplain : ∀ char ∈ spelling front, (!endsName char) = true := by
    intro char hchar
    rw [hfront char hchar]
    rfl
  have hsplit : spelling (front ++ behind) = spelling front ++ spelling behind :=
    List.flatMap_append
  rw [word, hsplit, List.takeWhile_append_of_pos hplain, List.append_right_eq_self]
  cases spelling behind with
  | nil => simp
  | cons char chars =>
      cases hends : endsName char with
      | true => simp [hends]
      | false => simp [hends]

/-- The line break behind a header ends the name as well. -/
theorem head?_all_iff
    (hparameters : parameters.print.result = .ok doc) (rest : List Leaf) :
    (spelling (doc.leaves ++ .hardLine :: rest)).head?.all endsName = parameters.beginsApart := by
  rw [head?_spelling, Node.beginsApart, Node.first?_of_print hparameters, List.filter_append]
  cases doc.leaves.filter Leaf.isVisible with
  | nil => rfl
  | cons leaf leaves => rfl

theorem first?_of_paren (hkind : parameters.kind = .parser .paren) :
    parameters.first? = some (.text "(") := by
  obtain ⟨height, hheight⟩ := Nat.exists_eq_succ_of_ne_zero (Nat.ne_of_gt parameters.height_pos)
  rw [Node.first?, hheight, Node.firstWithin, Node.outline, hkind]
  rfl

/-- A node without a rule and a parameter list without entries print nothing. -/
theorem first?_of_silent
    (hsilent : parameters.kind.isKnown = false ∨
      parameters.kind = .parser .params ∧ parameters.paramParts = []) :
    parameters.first? = none := by
  obtain ⟨height, hheight⟩ := Nat.exists_eq_succ_of_ne_zero (Nat.ne_of_gt parameters.height_pos)
  rw [Node.first?, hheight, Node.firstWithin, Node.outline]
  rcases hsilent with hunknown | ⟨hkind, hparts⟩
  · cases hkind : parameters.kind with
    | other name => rfl
    | scanner event =>
        rw [hkind] at hunknown
        cases hunknown
    | parser event =>
        rw [hkind] at hunknown
        cases hunknown
  · rw [hkind]
    simp only [Node.outlineAs, hparts]
    rfl

end Print

open Print

/-- In the header of a method, what the parameters print stands right behind the name, for
the layout and for the formatted text.  The word behind `def` is the name if and only if the
parameters begin apart.  They do so in parentheses, and where they print nothing. -/
theorem Node.name_apart_iff
    {node : Node} {doc : Doc} (hkind : node.kind = .parser .methodDef)
    (hprint : node.print.result = .ok doc) (settings : Settings) :
    ∃ name parameters nameDoc parametersDoc rest,
      node.childAt [0] = .ok name ∧ name.print.result = .ok nameDoc ∧
      node.childAt [1] = .ok parameters ∧ parameters.print.result = .ok parametersDoc ∧
      doc.leaves = .hardLine :: .text "def " ::
        (nameDoc.leaves ++ (parametersDoc.leaves ++ .hardLine :: rest)) ∧
      ((∀ char ∈ spelling nameDoc.leaves, endsName char = false) →
        (word (nameDoc.leaves ++ (parametersDoc.leaves ++ .hardLine :: rest)) =
          spelling nameDoc.leaves ↔ parameters.beginsApart = true)) ∧
      ((∀ leaf ∈ nameDoc.leaves, leaf.text?.isSome) → ∀ content,
        firstText? parametersDoc.leaves = some content →
          node.PrintsJoined settings doc [.hardLine] (.text "def " :: nameDoc.leaves) parameters
            content) ∧
      (parameters.kind = .parser .paren → parameters.first? = some (.text "(")) ∧
      (parameters.kind.isKnown = false ∨
          parameters.kind = .parser .params ∧ parameters.paramParts = [] →
        parameters.first? = none) := by
  cases makes_of_print hkind hprint with
  | @methodDef nameDoc parametersDoc body hname hparameters hbody =>
      obtain ⟨name, hname, hnameDoc⟩ := hname
      obtain ⟨parameters, hparameters, hparametersDoc⟩ := hparameters
      refine ⟨name, parameters, nameDoc, parametersDoc, body.leaves ++ [.hardLine, .text "end"],
        hname, hnameDoc, hparameters, hparametersDoc, ?_, ?_, ?_, first?_of_paren,
        first?_of_silent⟩
      · simp [Doc.leaves, Doc.allLeaves_eq_flatMap]
      · intro hplain
        rw [word_append_iff hplain, head?_all_iff hparametersDoc]
      · intro htexts content hcontent
        refine @printsJoined_of_leaves node _ _ parameters parametersDoc _
          (.hardLine :: (body.leaves ++ [.hardLine, .text "end"])) content hprint hparametersDoc
          hcontent ?_ ?_ settings
        · rw [List.forall_mem_cons]
          exact ⟨rfl, htexts⟩
        · simp [Doc.leaves, Doc.allLeaves_eq_flatMap]

/-- A method with its parameter in parentheses. -/
theorem Node.name_apart_paren :
    let parameters : Node := .branch (.parser .paren)
      [.node (.branch (.parser .params) [.list [.node (.leaf (.scanner .ident) "a")]])]
    let node : Node := .branch (.parser .methodDef) [
      .node (.leaf (.scanner .ident) "foo"), .node parameters,
      .node (.branch (.parser .bodyStmt) [.list []])]
    (node.format {}).result.toOption = some "def foo(a)\n\nend\n" ∧
      parameters.beginsApart = true ∧
      ∃ doc parametersDoc rest, node.print.result = .ok doc ∧
        parameters.print.result = .ok parametersDoc ∧
        word (.text "foo" :: (parametersDoc.leaves ++ .hardLine :: rest)) = "foo".toList := by
  intro parameters node
  obtain ⟨doc, hprint⟩ : ∃ doc, node.print.result = .ok doc := ⟨_, rfl⟩
  have hapart : parameters.beginsApart = true := by decide +kernel
  obtain ⟨name, found, nameDoc, parametersDoc, rest, hname, hnameDoc, hfound, hparametersDoc, -,
    hword, -⟩ := Node.name_apart_iff rfl hprint {}
  cases hname
  cases hfound
  have hfoo : (Node.leaf (.scanner .ident) "foo").print.result = .ok (.text "foo") := rfl
  rw [hfoo] at hnameDoc
  cases hnameDoc
  have hplain : ∀ char ∈ spelling [.text "foo"], endsName char = false := by
    have hchars : spelling [.text "foo"] = ['f', 'o', 'o'] := by decide +kernel
    rw [hchars]
    simp only [List.forall_mem_cons]
    exact ⟨rfl, rfl, rfl, List.forall_mem_nil _⟩
  exact ⟨by decide +kernel, hapart, doc, parametersDoc, rest, hprint, hparametersDoc,
    (hword hplain).2 hapart⟩

/-- Without the parentheses the name runs into the parameter. -/
theorem Node.name_fused :
    let parameters : Node := .branch (.parser .params)
      [.list [.node (.leaf (.scanner .ident) "a")]]
    let node : Node := .branch (.parser .methodDef) [
      .node (.leaf (.scanner .ident) "foo"), .node parameters,
      .node (.branch (.parser .bodyStmt) [.list []])]
    let root : Node := .branch (.parser .program) [.list [.node node]]
    (root.format {}).result.toOption = some "def fooa\n\nend\n" ∧
      parameters.first? = some (.text "a") ∧ parameters.beginsApart = false ∧
      node.print.result.toOption.map (fun doc => word (doc.leaves.drop 2)) =
        some "fooa".toList := by
  intro parameters node root
  exact ⟨by decide +kernel, by decide +kernel, by decide +kernel, by decide +kernel⟩

end TreeFormat
