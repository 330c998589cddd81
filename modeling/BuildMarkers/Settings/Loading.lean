import BuildMarkers.CommandLine.Options
import BuildMarkers.CommandLine.Usage
import BuildMarkers.Disk.Basic
import BuildMarkers.Notice
import BuildMarkers.Settings.Reading
import BuildMarkers.Settings.Validation
/-!
# Loading settings

Settings come from the file that the command line names, or else from the first
`buildmatch.yml` that there is in the working directory and the configuration
directories of the user. Without any, the defaults hold. Only valid settings
are loaded.
-/

namespace BuildMarkers

namespace Settings

/-- Why settings cannot be loaded. -/
inductive LoadError where
  | access (path : Path) (fault : Fault)
  | unreadable (path : Path) (error : Unreadable)
  | invalid (path : Path) (error : Invalid)
  deriving Repr

namespace LoadError

/-- What is wrong with the file or its contents. -/
def cause : LoadError → String
  | .access _ fault => fault.message
  | .unreadable _ error => error.message?.getD "malformed settings"
  | .invalid _ error => error.message

/-- The text of the error. -/
def message (e : LoadError) : String :=
  (match e with
  | .access path _ => "Failed to access configuration file '" ++ path.display
  | .unreadable path _ => "Failed to parse configuration from file '" ++ path.display
  | .invalid path _ => "Configuration validation failed in '" ++ path.display) ++ "': " ++ e.cause

end LoadError

/-- The name of the file. -/
def fileName : Path := .ofString "buildmatch.yml"

/-- The configuration directory of the user: the one that the environment
names by an absolute path, or else `.config` in the home directory. -/
def userDirectory? (s : Surroundings) : Option Path :=
  match (s.environment.lookup "XDG_CONFIG_HOME").map Path.ofString with
  | some directory => if directory.isAbsolute then some directory else home?
  | none => home?
where
  /-- The directory in the home directory. -/
  home? : Option Path :=
    match s.environment.lookup "HOME" with
    | some home =>
      if home = "" then none else some ((Path.ofString home).join (.ofString ".config"))
    | none => none

/-- The files that are looked for, in this order. -/
def candidates (s : Surroundings) : List Path :=
  let user := (userDirectory? s).toList.flatMap fun directory =>
    [directory, directory.join (.ofString programName)]
  (s.directory :: user).map (·.join fileName)

/-- The settings in the file. -/
def loadFile (d : Disk) (path : Path) : Except LoadError Settings := do
  let data ← (d.openFile path).mapError (.access path)
  if data.readFault.isSome then throw (.unreadable path .malformed)
  let settings ← (read data.content).mapError (.unreadable path)
  settings.validate.mapError (.invalid path)
  return settings

/-- The notice that a file is loaded. -/
def loadNotice (path : Path) : Notice :=
  ⟨.info, "buildmatch::config::loader", "Loading configuration file: " ++ path.display⟩

/-- The settings of a run, from the file that is given or the first candidate
that there is. -/
def load (d : Disk) (s : Surroundings) (given : Option String) :
    List Notice × Except LoadError Settings :=
  let file := match given with
    | some name => some (Path.ofString name)
    | none => (candidates s).find? d.exists?
  match file with
  | some path => ([loadNotice path], loadFile d path)
  | none => ([], .ok default)

end Settings

end BuildMarkers
