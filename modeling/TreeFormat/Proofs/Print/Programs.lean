import TreeFormat.Proofs.Layout.Joins
import TreeFormat.Proofs.Print.Locality

/-!
# Programs

A program is written statement by statement: its layout is the layouts that its statements
have on their own, one below the other.  So a change of some statements leaves the lines
of the others as they are (`Print.statements_independent`).
-/

namespace TreeFormat

open Layout

namespace Walk.Visits

variable {α β : Type} {outcome : Node → α → Prop}

theorem append_split
    {front back : List Slot} {values : List α} (hvisits : Visits outcome (front ++ back) values) :
    ∃ first second, values = first ++ second ∧
      Visits outcome front first ∧ Visits outcome back second := by
  induction front generalizing values with
  | nil => exact ⟨[], values, rfl, .nil, hvisits⟩
  | cons item front ih =>
      cases hvisits with
      | node hvalue hrest =>
          obtain ⟨first, second, rfl, hfirst, hsecond⟩ := ih hrest
          exact ⟨_ :: first, second, rfl, .node hvalue hfirst, hsecond⟩
      | absent hrest =>
          obtain ⟨first, second, rfl, hfirst, hsecond⟩ := ih hrest
          exact ⟨first, second, rfl, .absent hfirst, hsecond⟩

theorem map
    {outcome' : Node → β → Prop} {change : α → β} {items : List Slot} {values : List α}
    (hchange : ∀ child value, outcome child value → outcome' child (change value))
    (hvisits : Visits outcome items values) : Visits outcome' items (values.map change) := by
  induction hvisits with
  | nil => exact .nil
  | node hvalue _ ih => exact .node (hchange _ _ hvalue) ih
  | absent _ ih => exact .absent ih

theorem unique
    (houtcome : ∀ child value value', outcome child value → outcome child value' → value = value')
    {items : List Slot} {values values' : List α} (hvisits : Visits outcome items values)
    (hvisits' : Visits outcome items values') : values = values' := by
  induction hvisits generalizing values' with
  | nil =>
      cases hvisits'
      rfl
  | node hvalue _ ih =>
      cases hvisits' with
      | node hvalue' hrest' => rw [houtcome _ _ _ hvalue hvalue', ih hrest']
  | absent _ ih =>
      cases hvisits' with
      | absent hrest' => exact ih hrest'

end Walk.Visits

namespace Node

/-- The text that a node is laid out to on its own. -/
def Renders (settings : Settings) (node : Node) (text : String) : Prop :=
  ∃ doc, node.print.result = .ok doc ∧ text = render settings doc

variable {settings : Settings}

theorem Renders.unique
    (node : Node) (text text' : String) (hrenders : node.Renders settings text)
    (hrenders' : node.Renders settings text') : text = text' := by
  obtain ⟨doc, hprint, rfl⟩ := hrenders
  obtain ⟨doc', hprint', rfl⟩ := hrenders'
  rw [hprint] at hprint'
  cases hprint'
  rfl

/-- The document of a program joins those of its statements. -/
theorem print_program
    {program : Node} {doc : Doc} (hkind : program.kind = .parser .program)
    (hprint : program.print.result = .ok doc) :
    ∃ statements docs,
      program.listAt [0] = .ok statements ∧
      Walk.Visits (fun statement part => statement.print.result = .ok part) statements docs ∧
      doc = .root (.join .hardLine docs) := by
  cases makes_of_print hkind hprint with
  | program hdocs =>
      obtain ⟨statements, hstatements, hvisits⟩ := hdocs
      exact ⟨statements, _, hstatements, hvisits, rfl⟩

/-- A program is laid out as its statements are, each on lines of its own. -/
theorem renders_program
    {program : Node} {text : String} {statements : List Slot}
    (hkind : program.kind = .parser .program) (hstatements : program.listAt [0] = .ok statements)
    (hrenders : program.Renders settings text) :
    ∃ texts, Walk.Visits (Renders settings) statements texts ∧ text = "\n".intercalate texts := by
  obtain ⟨doc, hprint, rfl⟩ := hrenders
  obtain ⟨items, docs, hitems, hvisits, rfl⟩ := print_program hkind hprint
  rw [hstatements] at hitems
  cases hitems
  refine ⟨docs.map (render settings), ?_, render_join_hardLine settings docs⟩
  exact hvisits.map fun _ part hpart => ⟨part, hpart, rfl⟩

end Node

namespace Print

/-- Statements are laid out independently of one another.  Documents joined by line breaks
are rendered to their own renderings joined by single newlines, a program is rendered to the
renderings of its statements in this way, and where two programs share the statements in
front and behind, those have the same lines in both, whatever is between them. -/
theorem statements_independent (settings : Settings) :
    (∀ docs : List Doc,
      render settings (.root (.join .hardLine docs)) =
        "\n".intercalate (docs.map (render settings))) ∧
    (∀ (program : Node) (doc : Doc),
      program.kind = .parser .program → program.print.result = .ok doc →
      ∃ statements docs,
        program.listAt [0] = .ok statements ∧
        Walk.Visits (fun statement part => statement.print.result = .ok part) statements docs ∧
        doc = .root (.join .hardLine docs) ∧
        render settings doc = "\n".intercalate (docs.map (render settings))) ∧
    (∀ (program program' : Node) (front old new back : List Slot) (text text' : String),
      program.kind = .parser .program → program'.kind = .parser .program →
      program.listAt [0] = .ok (front ++ old ++ back) →
      program'.listAt [0] = .ok (front ++ new ++ back) →
      program.Renders settings text → program'.Renders settings text' →
      ∃ above middle middle' below,
        Walk.Visits (Node.Renders settings) front above ∧
        Walk.Visits (Node.Renders settings) old middle ∧
        Walk.Visits (Node.Renders settings) new middle' ∧
        Walk.Visits (Node.Renders settings) back below ∧
        text = "\n".intercalate (above ++ middle ++ below) ∧
        text' = "\n".intercalate (above ++ middle' ++ below)) := by
  refine ⟨render_join_hardLine settings, ?_, ?_⟩
  · intro program doc hkind hprint
    obtain ⟨statements, docs, hstatements, hvisits, rfl⟩ := Node.print_program hkind hprint
    exact ⟨statements, docs, hstatements, hvisits, rfl, render_join_hardLine settings docs⟩
  · intro program program' front old new back text text' hkind hkind' hlist hlist' hrenders hrenders'
    obtain ⟨texts, hvisits, rfl⟩ := Node.renders_program hkind hlist hrenders
    obtain ⟨texts', hvisits', rfl⟩ := Node.renders_program hkind' hlist' hrenders'
    obtain ⟨upper, below, rfl, hupper, hbelow⟩ := hvisits.append_split
    obtain ⟨upper', below', rfl, hupper', hbelow'⟩ := hvisits'.append_split
    obtain ⟨above, middle, rfl, habove, hmiddle⟩ := hupper.append_split
    obtain ⟨above', middle', rfl, habove', hmiddle'⟩ := hupper'.append_split
    cases habove.unique Node.Renders.unique habove'
    cases hbelow.unique Node.Renders.unique hbelow'
    exact ⟨above, middle, middle', below, habove, hmiddle, hmiddle', hbelow, rfl, rfl⟩

/-- A class is put between two statements, and both keep their lines. -/
theorem statements_independent_class :
    let call (name : String) : Slot :=
      .node (.branch (.parser .vcall) [.node (.leaf (.scanner .ident) name)])
    let body : Slot := .node (.branch (.parser .bodyStmt) [.list [call "baz"]])
    let added : Slot := .node (.branch (.parser .classDef)
      [.node (.leaf (.scanner .const) "Foo"), .absent, body])
    let program : Node := .branch (.parser .program) [.list [call "foo", call "bar"]]
    let program' : Node := .branch (.parser .program) [.list [call "foo", added, call "bar"]]
    program.Renders {} "foo\nbar" ∧
      program'.Renders {} "foo\nclass Foo\n  baz\nend\n\nbar" ∧
      ∃ above middle below,
        Walk.Visits (Node.Renders {}) [call "foo"] above ∧
        Walk.Visits (Node.Renders {}) [added] middle ∧
        Walk.Visits (Node.Renders {}) [call "bar"] below ∧
        "foo\nclass Foo\n  baz\nend\n\nbar" = "\n".intercalate (above ++ middle ++ below) := by
  intro call body added program program'
  have hrenders : ∀ (root : Node) (text : String),
      (root.print.result.toOption.map (render {})) = some text → root.Renders {} text := by
    intro root text htext
    cases hprint : root.print.result with
    | error fault =>
        rw [hprint] at htext
        cases htext
    | ok doc =>
        rw [hprint] at htext
        cases htext
        exact ⟨doc, hprint, rfl⟩
  have hbefore : program.Renders {} "foo\nbar" := hrenders _ _ (by decide +kernel)
  have hafter : program'.Renders {} "foo\nclass Foo\n  baz\nend\n\nbar" :=
    hrenders _ _ (by decide +kernel)
  obtain ⟨above, -, middle, below, habove, -, hmiddle, hbelow, -, htext⟩ :=
    (statements_independent {}).2.2 program program' [call "foo"] [] [added] [call "bar"] _ _
      rfl rfl rfl rfl hbefore hafter
  exact ⟨hbefore, hafter, above, middle, below, habove, hmiddle, hbelow, htext⟩

end Print

end TreeFormat
