import BuildMarkers.Reference.Basic
import BuildMarkers.Resolution.Resolver
/-!
# Settings

What the user configures: the projects of the workspace with the resources
linked into them, how names are compared, and how Cygwin paths are mapped.
Nothing is required, and the defaults are an empty workspace, the comparison
that the host uses, and no mapping.
-/

namespace BuildMarkers

namespace Settings

/-- A resource that the project sees at `path` and that lies at `target`. -/
structure LinkedResource where
  path : String
  target : Path
  deriving DecidableEq, Repr

/-- A named directory tree. -/
structure Project where
  name : String
  location : Path
  links : List LinkedResource
  deriving DecidableEq, Repr

/-- How names are compared. -/
inductive CaseChoice where
  /-- As the file system of the host does. -/
  | auto
  | sensitive
  | insensitive
  deriving DecidableEq, Repr

namespace CaseChoice

/-- The rule that is meant. The file system of the host tells the cases
apart. -/
def rule : CaseChoice → CaseRule
  | .auto | .sensitive => .sensitive
  | .insensitive => .insensitive

/-- The word for the choice. -/
def label : CaseChoice → String
  | .auto => "auto"
  | .sensitive => "sensitive"
  | .insensitive => "insensitive"

end CaseChoice

/-- A directory of the host that Cygwin shows at a point. -/
structure MountSetting where
  point : String
  target : Path
  deriving DecidableEq, Repr

/-- How Cygwin paths are mapped. -/
structure CygwinSettings where
  /-- What stands in front of the drive letters. -/
  drives : Option String
  mounts : List MountSetting
  deriving DecidableEq, Repr

namespace CygwinSettings

/-- Nothing is mapped. -/
def none : CygwinSettings := ⟨.none, []⟩

/-- The map that is configured. -/
def map (c : CygwinSettings) : CygwinMap :=
  .make c.drives (c.mounts.map fun m => (m.point, m.target))

end CygwinSettings

/-- The only version of the settings that there is. -/
def currentSchema : String := "1.0"

end Settings

open Settings in
/-- The settings of a run. -/
structure Settings where
  schema : String
  projects : List Project
  caseChoice : CaseChoice
  cygwin : CygwinSettings
  deriving DecidableEq, Repr

namespace Settings

/-- The settings where none are given. -/
def default : Settings := ⟨currentSchema, [], .auto, .none⟩

/-- The resolver that is configured. -/
def resolver (s : Settings) : Resolver := ⟨s.caseChoice.rule, s.cygwin.map⟩

end Settings

end BuildMarkers
