import BuildMarkers.Session.Destination
import BuildMarkers.Settings.Basic
import BuildMarkers.Workspace.Survey
/-!
# Sessions

A session is set up and then run. What can keep it from being set up is found
before the build log is read; what fails afterwards leaves the file of the
report what it was before.
-/

namespace BuildMarkers

/-! ## Setting up a session

Before the build log is read, everything is settled that it is matched against:
the tree of the workspace, the project that was built, the directory in which
the build started, the file with the log, and the destination of the report.
Each of these may be an obstacle, and the first one counts. The destination
comes last, so an obstacle leaves the disk as it was. -/

/-- Why a session cannot be set up. -/
inductive SetupError where
  | scan (error : ScanError)
  | unknownProject (name : String)
  /-- There is a choice of projects and none is named. -/
  | projectNotSpecified (names : List String)
  | inputNotFound (path : Path)
  | outputCreation (error : CreationError)
  deriving DecidableEq, Repr

namespace SetupError

/-- The text of the error. -/
def message : SetupError → String
  | .scan error => "Failed to scan the workspace: " ++ error.message
  | .unknownProject name => "Project not found in the workspace: " ++ name
  | .projectNotSpecified names =>
    "Project is not specified, use --project to select one of: " ++ ", ".intercalate names
  | .inputNotFound path => "Build output file not found: " ++ path.display
  | .outputCreation error => "Failed to create output: " ++ error.message

end SetupError

/-- Everything that a run needs to know. -/
structure Session where
  /-- The file with the build log, or nothing for the standard input. -/
  input : Option Path
  destination : Destination
  resolver : Resolver
  tree : Tree
  /-- The project that was built. -/
  project : String
  /-- The directory in which the build started. -/
  directory : Route
  deriving Repr

namespace Session

/-- The topic of the notices of a session. -/
def topic : String := "buildmatch::session"

/-- The name of the project where none are configured and nothing else gives
one. -/
def implicitName : String := "workspace"

/-- The project that stands for the working directory, named by the command
line or by the directory itself. -/
def implicitProject (s : Surroundings) (o : Options) : Settings.Project :=
  let directoryName := match s.directory.route.getLast? with
    | some (.name n) => n.text?
    | _ => none
  ⟨(o.project <|> directoryName).getD implicitName, s.directory, []⟩

/-- The projects of the workspace. -/
def workspace (s : Surroundings) (o : Options) (settings : Settings) :
    List Notice × List Settings.Project :=
  if settings.projects.isEmpty then
    let project := implicitProject s o
    let text := "No projects configured, using " ++ project.name ++ " at " ++ s.directory.display
    ([⟨.info, topic, text⟩], [project])
  else ([], settings.projects)

/-- The project that was built: the one that is named, or the only one. -/
def chosen (t : Tree) (projects : List Settings.Project) (named : Option String) :
    Except SetupError String :=
  let known (name : String) : Except SetupError String :=
    if t.hasProject name then .ok name else .error (.unknownProject name)
  match named, projects with
  | some name, _ => known name
  | none, [single] => known single.name
  | none, _ => .error (.projectNotSpecified (projects.map (·.name)))

/-- The directory in which the build started: the one that is named, or the
location of the project. -/
def directoryOf (s : Surroundings) (t : Tree) (project : String) (named : Option String) : Route :=
  match named with
  | some directory => (s.absolute (.ofString directory)).route
  | none =>
    ((t.get? (.ofProject project)).bind (·.location)).getD s.directory.route

/-- The file with the build log, which must be there. -/
def inputOf (d : Disk) (s : Surroundings) : Channel → Except SetupError (Option Path)
  | .standard => .ok none
  | .file name =>
    let path := s.absolute (.ofString name)
    if d.isFile path then .ok (some path) else .error (.inputNotFound path)

/-- The session that the command line and the settings ask for, and the disk on
which its report is begun. -/
def prepare (d : Disk) (s : Surroundings) (o : Options) (settings : Settings) :
    List Notice × Except SetupError (Session × Disk) :=
  let (announced, projects) := workspace s o settings
  let (warnings, scanned) := scan d projects
  (announced ++ warnings, do
    let tree ← scanned.mapError .scan
    let project ← chosen tree projects o.project
    let directory := directoryOf s tree project o.buildDirectory
    let input ← inputOf d s o.input
    let (destination, d) ← (Destination.create d s o.output).mapError .outputCreation
    return (⟨input, destination, settings.resolver, tree, project, directory⟩, d))

end Session

/-! ## Running a session

A run reads the build log, makes a marker of every diagnostic and writes the
report. References that lead nowhere are no failure: a run fails only when the
log cannot be read or the report cannot be written, and then the file of the
report is what it was before. -/

/-- How a run ends. -/
structure Ending where
  success : Bool
  notices : List Notice
  /-- What appears on the standard output. -/
  standardOutput : List Char
  disk : Disk
  deriving Repr

namespace Session

/-- The file with the build log, opened. -/
def openInput (d : Disk) (standardInput : FileData) (s : Session) :
    Except (Path × Fault) FileData :=
  match s.input with
  | none => .ok standardInput
  | some path => (d.openFile path).mapError (path, ·)

/-- What the references of the build log are resolved with. -/
def matching (d : Disk) (s : Session) : Matching := ⟨s.resolver, s.tree, d, s.project⟩

/-- What becomes of the build log. -/
def delivery (d : Disk) (s : Session) (data : FileData) : Delivery :=
  (MarkerStream.start (.ofFile data) s.directory).drain (s.matching d) (s.destination.room d)

/-- The notice of a failure. -/
def failure (text : String) : Notice := ⟨.error, topic, text⟩

/-- The notice of the statistics. -/
def summary (statistics : Statistics) : Notice := ⟨.info, "buildmatch::output", statistics.display⟩

/-- Carries out the session. -/
def run (d : Disk) (standardInput : FileData) (s : Session) : Ending :=
  match s.openInput d standardInput with
  | .error (path, fault) =>
    let text := "Failed to open build output: " ++ path.display ++ ": " ++ fault.message
    ⟨false, [failure text], [], s.destination.abandon d⟩
  | .ok data =>
    let delivery := s.delivery d data
    let written := s.destination.write d delivery
    let errors := written.error.toList.map fun error => failure error.message
    ⟨written.error.isNone, summary delivery.statistics :: errors,
      written.standardOutput, written.disk⟩

end Session

end BuildMarkers
