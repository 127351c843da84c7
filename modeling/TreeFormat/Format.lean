import TreeFormat.Layout.Render
import TreeFormat.Print.Printer
import TreeFormat.Source.Report
import TreeFormat.Tree.Load

/-!
# Formatting

A tree is formatted by printing it to a document, rendering the document and
tidying the text: blank lines at both ends are dropped, and the text ends with
exactly one line break unless it is empty.

A run keeps notice of everything that a reader of its log may want to see, in
order.
-/

namespace TreeFormat

/-- Why a text cannot be formatted. -/
inductive FormatFault where
  | load (fault : LoadFault)
  | print (fault : PrintFault)

namespace FormatFault

/-- The words for a formatting fault. -/
def message : FormatFault → String
  | .load fault => fault.message
  | .print fault => fault.message

/-- The location of a formatting fault and the words there.  Only a text that
cannot be loaded has one. -/
def label? : FormatFault → Option (Location × String)
  | .load fault => some (fault.location, fault.label)
  | .print _ => none

/-- The report of a formatting fault. -/
def report (fault : FormatFault) : Report :=
  ⟨fault.message, fault.label?⟩

end FormatFault

/-- The report of a skipped node. -/
def Skipped.report (skipped : Skipped) : Report :=
  ⟨skipped.message, none⟩

/-- Something that a run takes notice of. -/
inductive Notice where
  /-- The text was rejected. -/
  | rejected (fault : LoadFault)
  /-- A tree with a root of this kind was loaded. -/
  | loaded (root : Kind)
  /-- The printer came to a node or skipped it. -/
  | printing (event : Event)
  /-- The document is about to be rendered. -/
  | rendering (width : Nat)

namespace Notice

/-- The words for a notice. -/
def message : Notice → String
  | rejected fault =>
    "rejected syntax tree at " ++ toString fault.location.span.start ++ ".." ++
      toString fault.location.span.stop ++ ": " ++ fault.detail
  | loaded root => "loaded `" ++ root.name ++ "` tree"
  | printing (.visited kind depth) =>
    "printing `" ++ kind.name ++ "` at depth " ++ toString depth
  | printing (.skipped report) => report.message ++ ": " ++ report.node.toJson
  | rendering width => "document built, rendering at width " ++ toString width

/-- The node that was skipped, if the notice is about one. -/
def skipped? : Notice → Option Skipped
  | printing (.skipped report) => some report
  | _ => none

end Notice

/-- The result of a run and its notices. -/
structure Formatted where
  result : Except FormatFault String
  notices : List Notice

/-- The nodes that a run skipped, in order. -/
def Formatted.skipped (formatted : Formatted) : List Skipped :=
  formatted.notices.filterMap Notice.skipped?

/-- Drops the line breaks at both ends of a text. -/
def trimBreaks (text : List Char) : List Char :=
  ((text.dropWhile (· == '\n')).reverse.dropWhile (· == '\n')).reverse

/-- A text without blank lines at its ends and with one line break behind it,
unless it is empty. -/
def tidy (text : String) : String :=
  match trimBreaks text.toList with
  | [] => ""
  | body => String.ofList (body ++ ['\n'])

/-- Formats a tree. -/
def Node.format (settings : Settings) (node : Node) : Formatted :=
  let printout := node.print
  let visits := printout.log.toList.map Notice.printing
  match printout.result with
  | .error fault => ⟨.error (.print fault), visits⟩
  | .ok doc => ⟨.ok (tidy (Layout.render settings doc)), visits ++ [.rendering settings.width]⟩

/-- Formats the wire form of a tree.  The path is only used to label faults. -/
def formatText (settings : Settings) (text path : String) : Formatted :=
  match loadTree text path with
  | .error fault => ⟨.error (.load fault), [.rejected fault]⟩
  | .ok node =>
    let formatted := node.format settings
    ⟨formatted.result, .loaded node.kind :: formatted.notices⟩

/-- What a strict run reports: why it failed, or the nodes that it skipped. -/
def Formatted.strictReports (formatted : Formatted) : List Report :=
  match formatted.result with
  | .error fault => [fault.report]
  | .ok _ => formatted.skipped.map Skipped.report

end TreeFormat
