import TreeFormat.Print.Printer

/-!
# Cursor scripts

A script is a list of things to do at a cursor: to look at the node, to look at
its slots, to print it, and to run further steps on its children.  Every step
has an answer.  A script may give up, which ends the steps of the innermost
visit; the step that made the visit answers with the fault.
-/

namespace TreeFormat

/-- One thing to do at a cursor. -/
inductive CursorStep where
  | node
  | depth
  | describe
  | print
  | slot (path : List Nat)
  | has (path : List Nat)
  | token (path : List Nat)
  /-- Runs steps on the child at a slot path. -/
  | call (path : List Nat) (steps : List CursorStep)
  /-- Runs steps on every child of the list at a slot path. -/
  | each (path : List Nat) (steps : List CursorStep)
  /-- Gives up, or does so only at nodes of one name. -/
  | giveUp (name : Option String)

/-- What a step answers. -/
inductive CursorAnswer where
  | node (kind : Kind) (literal : Option String) (slots : Nat)
  | depth (count : Nat)
  | route (text : String)
  | printed (printout : Printout)
  | slot (found : Except LookupFault Slot)
  | has (present : Bool)
  | token (found : Except LookupFault String)
  | call (answers : Except LookupFault (List CursorAnswer))
  | each (answers : Except LookupFault (List (List CursorAnswer)))
  /-- The script did not give up. -/
  | kept

namespace CursorStep

/-- The fault of a script that gives up. -/
def surrender : LookupFault :=
  .missing (.ofName "callback") []

/-- A walk that has looked at nothing but its own cursor. -/
abbrev Run (α : Type) := Walk Unit LookupFault α

/-- The answer at the cursor to a step that makes no visit. -/
def look (answer : Cursor → CursorAnswer) : Run CursorAnswer := do
  return answer (← Walk.cursor)

/-- A visit as a value: its answers, or the fault that ended it. -/
def attempt {α : Type} (visit : Run α) : Run (Except LookupFault α) :=
  tryCatch (Except.ok <$> visit) fun fault => return .error fault

mutual

/-- Runs a step. -/
def run : CursorStep → Run CursorAnswer
  | .node => look fun cursor =>
    .node cursor.node.kind cursor.node.literal? cursor.node.slots.length
  | .depth => look fun cursor => .depth cursor.depth
  | .describe => look fun cursor => .route cursor.route
  | .print => look fun cursor => .printed cursor.print
  | .slot path => look fun cursor => .slot (cursor.node.slotAt path)
  | .has path => look fun cursor => .has (cursor.node.has path)
  | .token path => look fun cursor => .token (cursor.node.tokenAt path)
  | .call path steps => do
    return .call (← attempt (Walk.call path (runAll steps)))
  | .each path steps => do
    return .each (← attempt (Walk.each path (runAll steps)))
  | .giveUp none => throw surrender
  | .giveUp (some name) => do
    if (← Walk.node).kind.name = name then throw surrender
    return .kept

/-- Runs several steps one after the other. -/
def runAll : List CursorStep → Run (List CursorAnswer)
  | [] => return []
  | step :: steps => do
    let answer ← run step
    return answer :: (← runAll steps)

end

end CursorStep

/-- Runs a script on the root of a tree. -/
def Node.runScript (node : Node) (script : List CursorStep) :
    Except LookupFault (List CursorAnswer) :=
  ((CursorStep.runAll script).run (Cursor.ofRoot node, ())).1

end TreeFormat
