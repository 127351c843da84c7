import TreeFormat.Format

/-!
# Collecting skipped nodes

A collector keeps the skipped nodes of any number of runs, in order, until they
are taken out.
-/

namespace TreeFormat

/-- Skipped nodes that were not taken out yet. -/
structure Collector where
  reports : List Skipped := []

namespace Collector

/-- Adds a skipped node. -/
def add (collector : Collector) (skipped : Skipped) : Collector :=
  ⟨collector.reports ++ [skipped]⟩

/-- Adds the nodes that a run skipped. -/
def addRun (collector : Collector) (formatted : Formatted) : Collector :=
  ⟨collector.reports ++ formatted.skipped⟩

/-- The number of nodes that the collector holds. -/
def length (collector : Collector) : Nat :=
  collector.reports.length

/-- Whether the collector holds none. -/
def isEmpty (collector : Collector) : Bool :=
  collector.reports.isEmpty

/-- All nodes, and the empty collector. -/
def take (collector : Collector) : List Skipped × Collector :=
  (collector.reports, ⟨[]⟩)

end Collector

end TreeFormat
