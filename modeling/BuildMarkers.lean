import BuildMarkers.Main
import BuildMarkers.Proofs.Disk.Frame
import BuildMarkers.Proofs.Disk.Leads
import BuildMarkers.Proofs.Disk.Standing
import BuildMarkers.Proofs.Json.Grammar
import BuildMarkers.Proofs.Json.Written
import BuildMarkers.Proofs.Log.Announced
import BuildMarkers.Proofs.Log.Entered
import BuildMarkers.Proofs.Log.Lines
import BuildMarkers.Proofs.Log.Printed
import BuildMarkers.Proofs.Log.Reported
import BuildMarkers.Proofs.Path.Canonical
import BuildMarkers.Proofs.Path.Plain
import BuildMarkers.Proofs.Reference.Cygwin
import BuildMarkers.Proofs.Reference.Decoration
import BuildMarkers.Proofs.Reference.Mounts
import BuildMarkers.Proofs.Reference.Points
import BuildMarkers.Proofs.Resolution.LetterCase
import BuildMarkers.Proofs.Resolution.Outcome
import BuildMarkers.Proofs.Resolution.Physical
import BuildMarkers.Proofs.Resolution.Places
import BuildMarkers.Proofs.Resolution.Rearranged
import BuildMarkers.Proofs.Resolution.Relative
import BuildMarkers.Proofs.Resolution.Report
import BuildMarkers.Proofs.Resolution.Rules
import BuildMarkers.Proofs.Resolution.Searched
import BuildMarkers.Proofs.Resolution.Separators
import BuildMarkers.Proofs.Resolution.Translated
import BuildMarkers.Proofs.Session.Blocks
import BuildMarkers.Proofs.Session.Counts
import BuildMarkers.Proofs.Session.Output
import BuildMarkers.Proofs.Session.Stream
import BuildMarkers.Proofs.Settings.LinkPaths
import BuildMarkers.Proofs.Settings.Valid
import BuildMarkers.Proofs.Settings.Violations
import BuildMarkers.Proofs.Text.Digits
import BuildMarkers.Proofs.Text.Order
import BuildMarkers.Proofs.Text.RoundTrip
import BuildMarkers.Proofs.Text.Runs
import BuildMarkers.Proofs.Text.Segments
import BuildMarkers.Proofs.Workspace.Address
import BuildMarkers.Proofs.Workspace.Alike
import BuildMarkers.Proofs.Workspace.Built
import BuildMarkers.Proofs.Workspace.Chains
import BuildMarkers.Proofs.Workspace.Choice
import BuildMarkers.Proofs.Workspace.Exact
import BuildMarkers.Proofs.Workspace.Findings
import BuildMarkers.Proofs.Workspace.Forest
import BuildMarkers.Proofs.Workspace.FullPath
import BuildMarkers.Proofs.Workspace.Growth
import BuildMarkers.Proofs.Workspace.InPlace
import BuildMarkers.Proofs.Workspace.Listing
import BuildMarkers.Proofs.Workspace.Placed
import BuildMarkers.Proofs.Workspace.Portrayal
import BuildMarkers.Proofs.Workspace.Rearranged
import BuildMarkers.Proofs.Workspace.Refused
import BuildMarkers.Proofs.Workspace.Scanned
import BuildMarkers.Proofs.Workspace.Selection
import BuildMarkers.Proofs.Workspace.Spellings
import BuildMarkers.Proofs.Workspace.Surveyed
import BuildMarkers.Proofs.Workspace.Tour
import BuildMarkers.Proofs.Workspace.Upward
import BuildMarkers.Proofs.Workspace.Walk
