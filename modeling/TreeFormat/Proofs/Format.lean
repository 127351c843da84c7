import TreeFormat.Format

/-!
# Formatting runs

A formatting run hands on what loading and printing come to: its result is the tidied
rendering of the printed document, and the nodes that it skips are the ones in the log
of the printer.
-/

namespace TreeFormat

theorem Node.format_skipped (settings : Settings) (root : Node) :
    (root.format settings).skipped = root.print.log.skipped := by
  have hnotices : ∀ events : List Event,
      (events.map Notice.printing).filterMap Notice.skipped? =
        Log.skipped events.toArray := by
    intro events
    rw [Log.skipped, List.filterMap_map]
    congr 1
    funext event
    cases event <;> rfl
  have hlog := hnotices root.print.log.toList
  rw [Array.toArray_toList] at hlog
  rw [← hlog]
  simp only [Node.format, Formatted.skipped]
  cases root.print.result with
  | error fault => rfl
  | ok doc => simp [Notice.skipped?]

theorem Node.format_result (settings : Settings) (root : Node) :
    (root.format settings).result =
      match root.print.result with
      | .ok doc => .ok (tidy (Layout.render settings doc))
      | .error fault => .error (.print fault) := by
  simp only [Node.format]
  cases root.print.result <;> rfl

theorem formatText_skipped
    {text path : String} {root : Node} (hroot : loadTree text path = .ok root)
    (settings : Settings) :
    (formatText settings text path).skipped = root.print.log.skipped := by
  rw [← Node.format_skipped settings root]
  simp only [formatText, hroot]
  rfl

/-- A text is formatted if it is the wire form of a tree that prints. -/
theorem formatText_isOk_iff (settings : Settings) (text path : String) :
    (formatText settings text path).result.isOk = true ↔
      ∃ root doc, loadTree text path = .ok root ∧ root.print.result = .ok doc := by
  cases hroot : loadTree text path with
  | error fault => simp [formatText, hroot, Except.isOk, Except.toBool]
  | ok root =>
      have hresult : (formatText settings text path).result = (root.format settings).result := by
        simp only [formatText, hroot]
      rw [hresult, Node.format_result]
      cases hprint : root.print.result with
      | error fault => simp [Except.isOk, Except.toBool, hprint]
      | ok doc => simp [Except.isOk, Except.toBool, hprint]

end TreeFormat
