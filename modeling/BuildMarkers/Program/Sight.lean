import BuildMarkers.Program
/-!
# What a call looks at

A call is carried out on a finite disk. `sights` tells which part of the real
one has to be known for that: the files in which settings may be, then, as far
as these are known, the trees of the projects, the build log and the directory
of the report, and at last the places that the log refers to. Each of them
depends on the earlier ones, so the sights grow with the disk until it holds
all that the call looks at.
-/

namespace BuildMarkers

/-- A part of the disk. -/
inductive Sight where
  /-- What a path leads to. -/
  | entry (path : Path)
  /-- The file that a path leads to, with its bytes. -/
  | content (path : Path)
  /-- The directory that a path leads to, with everything below. -/
  | tree (path : Path)
  deriving DecidableEq, Repr

namespace Sight

/-- The path of the sight. -/
def path : Sight → Path
  | .entry p | .content p | .tree p => p

end Sight

namespace Session

/-- The places that the lines of a log refer to, seen from the trail. -/
def placesOf (r : Resolver) (trail : Trail) : List (List UInt8) → List Path
  | [] => []
  | bytes :: rest =>
    match MarkerStream.lineOf bytes with
    | .diagnostic diagnostic =>
      let reference := Reference.ofString diagnostic.reference
      trail.current.toPath :: trail.current.toPath.join reference.path ::
        (r.cygwin.translate? reference.text).toList ++ placesOf r trail rest
    | .directory change => placesOf r (trail.follow change) rest
    | .other => placesOf r trail rest

/-- The places that the build log refers to. -/
def places (d : Disk) (standardInput : FileData) (s : Session) : List Path :=
  match s.openInput d standardInput with
  | .ok data => placesOf s.resolver (.start s.directory) (BuildLog.ofFile data).lines
  | .error _ => []

end Session

namespace Program

/-- The sights of settings. -/
def settingsSights (s : Surroundings) (o : Options) : List Sight :=
  match o.settings with
  | some name => [.content (s.absolute (.ofString name))]
  | none => (Settings.candidates s).map .content

/-- The sights of the workspace, the build log and the report. -/
def sessionSights (s : Surroundings) (o : Options) (settings : Settings) : List Sight :=
  let projects := (Session.workspace s o settings).2
  let trees := projects.flatMap fun p => Sight.tree p.location :: p.links.map fun l =>
      Sight.tree l.target
  let input := match o.input with
    | .standard => []
    | .file name => [Sight.content (s.absolute (.ofString name))]
  let output := match o.output with
    | .standard => []
    | .file name =>
      let target := Path.ofString name
      [Sight.entry (s.absolute (Destination.directoryOf target)), Sight.entry (s.absolute target)]
  trees ++ input ++ output

/-- What a call looks at, as far as its disk tells. -/
def sights (c : Call) : List Sight :=
  let s := c.surroundings
  match CommandLine.parse c.arguments with
  | .error _ => []
  | .ok o =>
    .entry s.directory :: settingsSights s o ++
      (match (Settings.load c.disk s o.settings).2 with
      | .error _ => []
      | .ok settings =>
        sessionSights s o settings ++
          (match (Session.prepare c.disk s o settings).2 with
          | .error _ => []
          | .ok (session, d) => (session.places d c.standardInput).map .entry))

end Program

end BuildMarkers
