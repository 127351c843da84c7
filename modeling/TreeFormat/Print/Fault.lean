import TreeFormat.Tree.Cursor

/-!
# Printing faults and printing logs

Printing stops at a node whose slots do not have the shape that its rule relies
on.  The fault tells the way to that node and why the lookup there failed.  A
lookup does not know the way, so the fault has none at first; the printer fills it
in where the rule of the node ends.

A node of unknown kind does not stop the printer.  It is skipped, and the log of
the run tells so, next to the nodes that were visited.
-/

namespace TreeFormat

/-- Why a tree cannot be printed: the way to the node that is malformed, and the
lookup that failed there. -/
structure PrintFault where
  route : String
  reason : LookupFault
  deriving DecidableEq, Repr

/-- The words for a printing fault. -/
def PrintFault.message (fault : PrintFault) : String :=
  "malformed syntax tree at " ++ fault.route ++ ": " ++ fault.reason.message

instance : OfLookupFault PrintFault where
  ofLookupFault reason := { route := "", reason }

/-- Fills in the way to a cursor, unless the fault has one. -/
def PrintFault.locate (cursor : Cursor) (fault : PrintFault) : PrintFault :=
  if fault.route.isEmpty then { fault with route := cursor.route } else fault

/-- A node that the printer skipped, and the way to it. -/
structure Skipped where
  node : Node
  route : String
  deriving DecidableEq

/-- The words for a skipped node. -/
def Skipped.message (skipped : Skipped) : String :=
  "unsupported node `" ++ skipped.node.kind.name ++ "` at " ++ skipped.route

/-- Something that happened during a printing run. -/
inductive Event where
  /-- The printer came to a node. -/
  | visited (kind : Kind) (depth : Nat)
  | skipped (report : Skipped)
  deriving DecidableEq

/-- What happened during a printing run, in order. -/
abbrev Log := Array Event

/-- The nodes that were skipped, in order. -/
def Log.skipped (log : Log) : List Skipped :=
  log.toList.filterMap fun
    | .skipped report => some report
    | .visited _ _ => none

end TreeFormat
