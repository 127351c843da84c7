import TreeFormat.Command.Run
import TreeFormat.Proofs.Format
import TreeFormat.Proofs.Print.Reports

/-!
# Strict runs

A strict run fails if the printer reported a node.  It reports the nodes of unknown
kind among those that the rules read (`Command.formatInput_strict_code`), and a rule
need not read all slots of its node.  A node of unknown kind in a slot that is not read
is lost, and the run succeeds all the same (`method_loses_rescue`).
-/

namespace TreeFormat

namespace Command

theorem formatInput_code_eq_zero_iff
    {options : Options} {text : String} {formatted : Formatted}
    (hformatted : formatText options.settings text (options.file.getD "") = formatted)
    (said : String) :
    (formatInput options said text).code = 0 ↔
      formatted.result.isOk = true ∧ (options.strict = true → formatted.skipped = []) := by
  simp only [formatInput, hformatted]
  cases formatted.result with
  | error fault => simp [Except.isOk, Except.toBool]
  | ok output =>
      cases formatted.skipped with
      | nil => simp [Except.isOk, Except.toBool]
      | cons report reports =>
          cases hstrict : options.strict <;> simp [Except.isOk, Except.toBool]

/-- A strict run succeeds if and only if the text is a tree that prints, and none of the
nodes that the rules read there is of unknown kind. -/
theorem formatInput_strict_code (options : Options) (said text : String) :
    (formatInput { options with strict := true } said text).code = 0 ↔
      ∃ root doc, loadTree text (options.file.getD "") = .ok root ∧
        root.print.result = .ok doc ∧
        ∀ position node, root.Reads position → root.nodeAt? position = some node →
          node.kind.isKnown = true := by
  rw [formatInput_code_eq_zero_iff rfl, formatText_isOk_iff]
  constructor
  · rintro ⟨⟨root, doc, hroot, hprint⟩, hskipped⟩
    have hnone := hskipped rfl
    rw [formatText_skipped hroot, Node.skipped_eq_nil_iff hprint] at hnone
    exact ⟨root, doc, hroot, hprint, hnone⟩
  · rintro ⟨root, doc, hroot, hprint, hknown⟩
    refine ⟨⟨root, doc, hroot, hprint⟩, fun _ => ?_⟩
    rw [formatText_skipped hroot, Node.skipped_eq_nil_iff hprint]
    exact hknown

/-- The handler of a method body is not read: the method prints without it, and nothing
is reported. -/
theorem method_loses_rescue :
    let rescue : Node := .branch (.other "rescue") []
    let body : Node := .branch (.parser .bodyStmt)
      [.list [.node (.branch (.parser .voidStmt) [])], .node rescue, .absent, .absent]
    let method : Node := .branch (.parser .methodDef)
      [.node (.leaf (.scanner .ident) "foo"), .node (.branch (.parser .params) []), .node body]
    let root : Node := .branch (.parser .program) [.list [.node method]]
    root.print.result.isOk = true ∧ root.print.log.skipped = [] ∧
      root.nodeAt? [[0, 0], [2], [1]] = some rescue ∧ rescue.kind.isKnown = false := by
  intro rescue body method root
  have hprint : root.print.result.isOk = true := by decide +kernel
  have hskipped : root.print.log.skipped = [] := by decide +kernel
  have hfound : root.nodeAt? [[0, 0], [2], [1]] = some rescue := by rfl
  exact ⟨hprint, hskipped, hfound, rfl⟩

end Command

end TreeFormat
