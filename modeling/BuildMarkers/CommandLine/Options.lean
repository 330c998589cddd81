import BuildMarkers.Path.Route
/-!
# Options and surroundings

What a call of the program brings along: what the command line asks for, and
what is there when the program starts.
-/

namespace BuildMarkers

/-! ## Options

What the command line asks for. Input and output are files or the standard
streams, for which a hyphen stands. -/

/-- Where the build log comes from or the markers go to. -/
inductive Channel where
  | standard
  | file (name : String)
  deriving DecidableEq, Repr

namespace Channel

/-- What stands for a standard stream. -/
def standardName : String := "-"

/-- The channel that a name stands for. -/
def ofName (name : String) : Channel := if name = standardName then .standard else .file name

/-- The name that stands for the channel. -/
def name : Channel → String
  | .standard => standardName
  | .file name => name

end Channel

/-- What the command line asks for. -/
structure Options where
  /-- The file with the settings. -/
  settings : Option String
  /-- The project that was built. -/
  project : Option String
  /-- The directory in which the build was running. -/
  buildDirectory : Option String
  input : Channel
  output : Channel
  /-- How often more notices were asked for, 255 at most. -/
  verbosity : Nat
  deriving DecidableEq, Repr

namespace Options

/-- What an empty command line asks for. -/
def default : Options := ⟨none, none, none, .standard, .standard, 0⟩

end Options

/-! ## Surroundings

What a run finds when it starts: the program's own file, the directory it was
started in and the environment. -/

/-- What a run finds when it starts. -/
structure Surroundings where
  /-- The program's own file. -/
  executable : Path
  /-- The directory in which the program was started. -/
  directory : Path
  /-- The variables of the environment. -/
  environment : List (String × String)
  deriving Repr

namespace Surroundings

/-- The variables that a run takes notice of. -/
def relevantVariables : List String := ["RUST_LOG", "RUST_LOG_STYLE", "CYGWIN"]

/-- The path as seen from the directory of the run. -/
def absolute (s : Surroundings) (p : Path) : Path := s.directory.join p

/-- The surroundings as a text. -/
def display (s : Surroundings) : String :=
  let shown := relevantVariables.filterMap fun name =>
    (s.environment.lookup name).map fun value => "  " ++ name ++ "=" ++ value ++ "\n"
  "Application Context:\nCurrent Executable: " ++ s.executable.display ++
  "\nCurrent Directory: " ++ s.directory.display ++
  "\nTotal Environment Variables: " ++ toString s.environment.length ++
  " entries\nRelevant Environment Variables:\n" ++ String.join shown

end Surroundings

end BuildMarkers
