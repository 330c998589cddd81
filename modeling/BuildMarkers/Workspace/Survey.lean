import BuildMarkers.Disk.Change
import BuildMarkers.Notice
import BuildMarkers.Settings.Basic
import BuildMarkers.Workspace.Build
/-!
# Surveying the disk

A survey walks the location of every project and says, step by step, what the
tree consists of. Directories are walked in the order of their names. A
symbolic link to a directory is walked as well, unless its directory is on the
walk already; a link that leads nowhere is a file without a location. Then the
configured links follow, and a linked directory is walked like any other. What
cannot be read is left out, and the survey goes on.

The survey is a list of steps that does not depend on the tree, so a scan is
two things in a row: the survey of the disk, and the calls of the survey
applied to an empty tree up to the first failure.
-/

namespace BuildMarkers

open Settings

/-- Why a workspace cannot be scanned. -/
inductive ScanError where
  /-- The location of the project leads nowhere. -/
  | projectLocation (name : String) (location : Path) (fault : Fault)
  | notDirectory (name : String) (location : Path)
  | tree (error : TreeError)
  deriving DecidableEq, Repr

namespace ScanError

/-- The text of the error. -/
def message : ScanError → String
  | .projectLocation name location fault =>
    "Location of project " ++ name ++ " is not accessible " ++ location.display ++
      ": " ++ fault.message
  | .notDirectory name location =>
    "Location of project " ++ name ++ " is not a directory: " ++ location.display
  | .tree error => "Failed to build the resource tree: " ++ error.message

end ScanError

namespace Survey

/-- What a survey comes upon. -/
inductive Step where
  /-- A part of the tree. -/
  | call (call : Call)
  /-- Something that is left out, and why. -/
  | warning (text : String)
  /-- The end of the survey. -/
  | failure (error : ScanError)
  deriving DecidableEq, Repr

/-- The topic of the notices of a survey. -/
def topic : String := "buildmatch::resource::scan"

/-- The plain spelling of a place. -/
def pathOf (place : Place) : Path := (Route.ofNames place).toPath

/-- The steps for one entry of a directory, where `below` surveys a
directory. -/
def entry (d : Disk) (below : List String → Place → List Step) (project : String)
    (segments : List String) (directory : Place) (name : FileName) : List Step :=
  let place := directory ++ [name]
  match name.text? with
  | none => [.warning ("Skipping entry with non UTF-8 name: " ++ (pathOf place).display)]
  | some text =>
    let segments := segments ++ [text]
    match d.kindFault? directory name with
    | some fault =>
      [.warning ("Failed to query " ++ (pathOf place).display ++ ": " ++ fault.message)]
    | none =>
      match d.node? place with
      | none => []
      | some (.file _) => [.call (.resource project segments .file .none)]
      | some .directory =>
        .call (.resource project segments .folder .none) :: below segments place
      | some (.link _) =>
        match d.canonicalize (pathOf place) with
        | .error _ =>
          let target := (d.readLink (pathOf place)).toOption.getD ⟨[]⟩
          [.call (.resource project segments .file (.symbolic target false))]
        | .ok real =>
          let link := Link.symbolic (pathOf real) true
          if d.isDirectory real then
            .call (.resource project segments .folder link) :: below segments real
          else [.call (.resource project segments .file link)]

/-- The steps for the entries of a directory, where `below` surveys a
directory. Entries that cannot be read are complained about first. -/
def entries (d : Disk) (below : List String → Place → List Step) (project : String)
    (segments : List String) (place : Place) : List Step :=
  match d.readDirectory (pathOf place) with
  | .error fault =>
    [.warning ("Failed to read directory " ++ (pathOf place).display ++ ": " ++ fault.message)]
  | .ok (faults, names) =>
    faults.map (fun fault => .warning ("Failed to read entry: " ++ fault.message)) ++
      names.flatMap (entry d below project segments place)

/-- The place by which a directory counts as walked: where its path leads, or
its own where that cannot be told. -/
def identity (d : Disk) (place : Place) : Place :=
  (d.canonicalize (pathOf place)).toOption.getD place

/-- The steps for a directory that the segments lead to. `walked` are the
directories that the survey is inside of; one of them is not walked again.
Every level adds a directory to them, so no walk is deeper than there are
directories. -/
def directory (d : Disk) (project : String) : Nat → List Place → List String → Place → List Step
  | 0, _, _, _ => []
  | depth + 1, walked, segments, place =>
    if identity d place ∈ walked then []
    else entries d (directory d project depth (identity d place :: walked)) project segments place

/-- A bound on the depth of a survey. -/
def depth (d : Disk) : Nat := d.entries.length + 2

/-- The steps for a directory on which a walk sets out. -/
def whole (d : Disk) (project : String) (segments : List String) (place : Place) : List Step :=
  directory d project (depth d) [] segments place

/-- The steps for a configured link, where `walk` surveys a directory. -/
def linked (d : Disk) (walk : List String → Place → List Step) (project : String)
    (link : LinkedResource) : List Step :=
  let segments := Tree.segmentsOf link.path
  match d.canonicalize link.target with
  | .error fault =>
    [.warning ("Linked resource /" ++ project ++ "/" ++ "/".intercalate segments ++
      " is skipped, target " ++ link.target.display ++ " is not accessible: " ++ fault.message)]
  | .ok place =>
    if d.isDirectory place then
      .call (.resource project segments .folder (.linked (pathOf place))) :: walk segments place
    else [.call (.resource project segments .file (.linked (pathOf place)))]

/-- The steps for a project, where `walk` surveys a directory of the project
with the name. -/
def project (d : Disk) (walk : String → List String → Place → List Step)
    (p : Project) : List Step :=
  match d.canonicalize p.location with
  | .error fault => [.failure (.projectLocation p.name p.location fault)]
  | .ok place =>
    if d.isDirectory place then
      .call (.project p.name (pathOf place)) ::
        (walk p.name [] place ++ p.links.flatMap (linked d (walk p.name) p.name))
    else [.failure (.notDirectory p.name p.location)]

/-- The steps for all projects. -/
def projects (d : Disk) (ps : List Project) : List Step := ps.flatMap (project d (whole d))

/-- The tree that the steps add up to, and the warnings up to the first
failure. -/
def build (t : Tree) : List Step → List Notice × Except ScanError Tree
  | [] => ([], .ok t)
  | .failure error :: _ => ([], .error error)
  | .warning text :: rest =>
    let (notices, result) := build t rest
    (⟨.warn, topic, text⟩ :: notices, result)
  | .call call :: rest =>
    match t.apply call with
    | .ok t => build t rest
    | .error error => ([], .error (.tree error))

end Survey

/-- The tree of the projects as the disk has them, and what the scan has to
tell. -/
def scan (d : Disk) (ps : List Project) : List Notice × Except ScanError Tree :=
  Survey.build .empty (Survey.projects d ps)

end BuildMarkers
