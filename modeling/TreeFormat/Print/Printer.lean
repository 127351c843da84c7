import TreeFormat.Print.Rules

/-!
# Printing a tree

The printer turns the node under the cursor into a layout document.  A leaf of a
known kind prints its text, a composite node follows the rule of its kind, and a
node of unknown kind prints nothing and is logged as skipped.

The recursion goes down at most as many nodes as the height of the node it
starts from.
-/

namespace TreeFormat

namespace Print

/-- Adds an event to the log. -/
def record (event : Event) : Printer Unit :=
  Walk.update fun log => log.push event

/-- A node without a rule prints nothing and is logged. -/
def skip : Printer Doc := do
  let cursor ← Walk.cursor
  record (.skipped ⟨cursor.node, cursor.route⟩)
  return .nil

/-- Runs an action at a node.  A fault that has no way yet gets the one to the
cursor, which is back on the node by then. -/
def located (act : Printer Doc) : Printer Doc :=
  tryCatch act fun fault => do
    throw (fault.locate (← Walk.cursor))

/-- A fault gets its way filled in, and everything else stays as it is. -/
theorem run_located (act : Printer Doc) (start : Cursor × Log) :
    (located act).run start =
      let ended := act.run start
      (ended.1.mapError (·.locate ended.2.1), ended.2) := by
  unfold located
  simp only [tryCatch, tryCatchThe, MonadExceptOf.tryCatch, ExceptT.tryCatch, ExceptT.run,
    ExceptT.mk, bind, StateT.bind]
  rcases act start with ⟨result, after⟩
  cases result <;> rfl

/-- Prints the node under the cursor, going down at most the given number of
nodes. -/
def within : Nat → Printer Doc
  | 0 => return .nil
  | height + 1 => do
    let cursor ← Walk.cursor
    record (.visited cursor.node.kind cursor.depth)
    located <|
      match cursor.node.kind with
      | .scanner _ => literal
      | .parser event => rule (within height) event
      | .other _ => skip

/-- Prints the node under the cursor. -/
def here : Printer Doc := do
  within (← Walk.node).height

end Print

/-- The result of a printing run and what happened during it. -/
structure Printout where
  result : Except PrintFault Doc
  log : Log

/-- Prints the node under a cursor. -/
def Cursor.print (cursor : Cursor) : Printout :=
  let (result, _, log) := Print.here.run (cursor, #[])
  ⟨result, log⟩

/-- Prints a tree from its root. -/
def Node.print (node : Node) : Printout :=
  (Cursor.ofRoot node).print

end TreeFormat
