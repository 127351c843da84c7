import TreeFormat.Layout.Absolute
import TreeFormat.Main
import TreeFormat.Print.Collector
import TreeFormat.Print.Script
import TreeFormat.Proofs.Command.Strict
import TreeFormat.Proofs.Json.Nesting
import TreeFormat.Proofs.Layout.Columns
import TreeFormat.Proofs.Layout.Indentation
import TreeFormat.Proofs.Layout.Interchange
import TreeFormat.Proofs.Layout.Openings
import TreeFormat.Proofs.Layout.Refinement
import TreeFormat.Proofs.Layout.Rendering
import TreeFormat.Proofs.Layout.Splits
import TreeFormat.Proofs.Layout.Steady
import TreeFormat.Proofs.Print.Acceptance
import TreeFormat.Proofs.Print.Bodies
import TreeFormat.Proofs.Print.Builds
import TreeFormat.Proofs.Print.Conformance
import TreeFormat.Proofs.Print.Courses
import TreeFormat.Proofs.Print.Exposure
import TreeFormat.Proofs.Print.Faults
import TreeFormat.Proofs.Print.Headers
import TreeFormat.Proofs.Print.Locality
import TreeFormat.Proofs.Print.Opacity
import TreeFormat.Proofs.Print.Parameters
import TreeFormat.Proofs.Print.Plans
import TreeFormat.Proofs.Print.Programs
import TreeFormat.Proofs.Print.Provenance
import TreeFormat.Proofs.Print.Quotes
import TreeFormat.Proofs.Print.Reads
import TreeFormat.Proofs.Print.Reports
import TreeFormat.Proofs.Print.Separation
import TreeFormat.Proofs.Print.Separators
import TreeFormat.Proofs.Print.Shapes
import TreeFormat.Proofs.Print.Statements
import TreeFormat.Proofs.Print.Variants
import TreeFormat.Proofs.Print.Visits
import TreeFormat.Proofs.Source.Locations
import TreeFormat.Proofs.Tree.Addresses
import TreeFormat.Proofs.Tree.Calls
import TreeFormat.Proofs.Tree.Paths
import TreeFormat.Proofs.Tree.Returns
import TreeFormat.Proofs.Wire.Attempts
import TreeFormat.Proofs.Wire.Loading
import TreeFormat.Proofs.Wire.Reloading
import TreeFormat.Proofs.Wire.RoundTrip
import TreeFormat.Proofs.Wire.Settling
