import BuildMarkers.Json.Value
import BuildMarkers.Log.Diagnostic
import BuildMarkers.Resolution.Resolver
/-!
# Markers

A marker attaches a diagnostic to a resource of the workspace: to the file that
the reference means, or to the project if no file or more than one is meant. In
that case the description keeps the reference, and the files that may be meant
are listed.
-/

namespace BuildMarkers

/-- What a marker is attached to. -/
inductive MarkerTarget where
  /-- The file with this full path. -/
  | file (fullPath : String)
  | project (name : String)
  deriving DecidableEq, Repr

/-- A diagnostic at a resource. -/
structure Marker where
  target : MarkerTarget
  line : UInt32
  column : Option UInt32
  severity : Severity
  description : String
  /-- The full paths of the files that may be meant. -/
  candidates : List String
  deriving DecidableEq, Repr

namespace Marker

/-- The marker for a diagnostic whose reference has this outcome. -/
def ofOutcome (site : Site) (diagnostic : Diagnostic) : Outcome → Marker
  | .unique file => marker (.file file.fullPath) diagnostic.description []
  | .noMatch => marker (.project site.project) opaqueText []
  | .ambiguous files => marker (.project site.project) opaqueText (files.map Address.fullPath)
where
  /-- The description that keeps the reference. -/
  opaqueText : String :=
    (Reference.ofString diagnostic.reference).text ++ " " ++ diagnostic.description
  /-- The marker with the numbers and the severity of the diagnostic. -/
  marker (target : MarkerTarget) (description : String) (candidates : List String) : Marker :=
    { target, line := diagnostic.line, column := diagnostic.column
      severity := diagnostic.severity, description, candidates }

/-- The marker for a diagnostic, and what became of its reference. -/
def generate (r : Resolver) (t : Tree) (d : Disk) (site : Site) (diagnostic : Diagnostic) :
    Marker × Outcome :=
  let outcome := r.resolve t d site (.ofString diagnostic.reference)
  (ofOutcome site diagnostic outcome, outcome)

end Marker

/-! ## Reports

A report is the text in which markers are handed on: a JSON array with one
object for each marker and a line feed at its end. A report of which the last
markers never came breaks off behind those that did, without the closing
bracket, so nobody takes it for a complete one. -/

open Json

namespace MarkerTarget

/-- The target as a JSON object, whose only key says what kind it is. -/
def json : MarkerTarget → Value
  | .file fullPath => .object [("file", .text fullPath)]
  | .project name => .object [("project", .text name)]

end MarkerTarget

namespace Marker

/-- The marker as a JSON object. A column or candidates that there are none of
are left out. -/
def json (m : Marker) : Value :=
  .object (
    [("resource", m.target.json), ("line", .number m.line.toNat)] ++
    (m.column.toList.map fun column => ("column", .number column.toNat)) ++
    [("severity", .text m.severity.label), ("description", .text m.description)] ++
    (if m.candidates.isEmpty then [] else [("candidates", .array (m.candidates.map .text))]))

end Marker

namespace Report

/-- The complete report of the markers. -/
def complete (markers : List Marker) : List Char :=
  write 0 (.array (markers.map Marker.json)) ++ ['\n']

/-- What is written of a report before it breaks off behind these markers. -/
def brokenOff (markers : List Marker) : List Char := unfinished (markers.map Marker.json)

end Report

end BuildMarkers
