import BuildMarkers.CommandLine.Parse
import BuildMarkers.Notice
import BuildMarkers.Session.Run
import BuildMarkers.Settings.Loading
import BuildMarkers.Settings.Writing
/-!
# The program

One call of the program from the command line to the exit code. The command
line comes first, then the settings, then the session; the first of them that
fails ends the call with its message on the standard error output. Notices go
there as well, as far as they are shown.
-/

namespace BuildMarkers

namespace Program

/-- What a call of the program starts from. -/
structure Call where
  arguments : List String
  surroundings : Surroundings
  standardInput : FileData
  disk : Disk
  deriving Repr

/-- What a call of the program leaves behind. -/
structure Result where
  exitCode : Nat
  standardOutput : String
  standardError : String
  disk : Disk
  deriving Repr

/-- The threshold for as many requests for more notices. -/
def thresholdOf : Nat → Threshold
  | 0 => .warn
  | 1 => .info
  | 2 => .debug
  | _ => .trace

/-- The filter of a call, and the complaints about it. The environment adds to
what the command line asks for. -/
def filterOf (s : Surroundings) (verbosity : Nat) : NoticeFilter × List String :=
  let f := NoticeFilter.uniform (thresholdOf verbosity)
  match s.environment.lookup "RUST_LOG" with
  | some text => f.extend text
  | none => (f, [])

/-- A notice of the program itself. -/
def notice (text : String) : Notice := ⟨.info, programName, text⟩

/-- An optional text in its written form. -/
def optional (text : Option String) : String :=
  match text with
  | some s => "Some(" ++ Text.quoted s ++ ")"
  | none => "None"

/-- The options as a notice shows them. -/
def optionsText (o : Options) : String :=
  Settings.Violation.record "Arguments" [
    ("config", optional o.settings),
    ("project", optional o.project),
    ("build_directory", optional o.buildDirectory),
    ("input", Settings.Violation.record "BuildLog" [("file_name", Text.quoted o.input.name)]),
    ("output", Settings.Violation.record "Diagnostics" [("file_name", Text.quoted o.output.name)])]

/-- The notices with which a call begins. -/
def greeting (s : Surroundings) (o : Options) : List Notice := [
  notice (programName ++ " v" ++ programVersion),
  notice "Running on... unix/linux x86_64",
  notice s.display,
  notice (optionsText o)]

/-- A text whose further lines start with the margin. -/
def indented (margin text : String) : String :=
  String.ofList (text.toList.flatMap fun c => if c = '\n' then '\n' :: margin.toList else [c])

/-- Causes in a list, each after its number. -/
def numbered (index : Nat) : List String → String
  | [] => ""
  | cause :: rest =>
    let number := toString index
    String.ofList (List.replicate (5 - number.length) ' ') ++ number ++ ": " ++
      indented "       " cause ++ "\n" ++ numbered (index + 1) rest

/-- An error with its causes, as a call shows it when it ends with it. -/
def errorText (message : String) (causes : List String) : String :=
  "Error: " ++ message ++ "\n" ++
    (match causes with
    | [] => ""
    | [cause] => "\nCaused by:\n    " ++ indented "    " cause ++ "\n"
    | causes => "\nCaused by:\n" ++ numbered 0 causes)

/-- The errors behind an error of the scan, the outermost first. -/
def scanCauses : ScanError → List String
  | .projectLocation name location fault =>
    [(ScanError.projectLocation name location fault).message, fault.message]
  | .notDirectory name location => [(ScanError.notDirectory name location).message]
  | .tree error => [(ScanError.tree error).message, error.message]

/-- The errors behind an obstacle, the outermost first. -/
def setupCauses : SetupError → List String
  | .scan error => scanCauses error
  | .outputCreation error => [error.message]
  | .unknownProject _ | .projectNotSpecified _ | .inputNotFound _ => []

/-- The text for a command line that asks for no run. -/
def refusal (e : UsageError) : String :=
  let usage := match e with
    | .missingValue _ => ""
    | _ => "Usage: " ++ programName ++ " [OPTIONS]\n\n"
  e.message ++ "\n\n" ++ usage ++ "For more information, try '--help'.\n"

/-- What the command line, once read, leads to: the notices, the error that
ends the call, and how the run ends. -/
def carryOut (c : Call) (o : Options) : List Notice × Except String Ending :=
  let (loading, loaded) := Settings.load c.disk c.surroundings o.settings
  let begun := greeting c.surroundings o ++ loading
  match loaded with
  | .error e => (begun, .error (errorText e.message [e.cause]))
  | .ok settings =>
    let (preparing, prepared) := Session.prepare c.disk c.surroundings o settings
    let begun := begun ++ notice settings.display :: preparing
    match prepared with
    | .error e => (begun, .error (errorText e.message (setupCauses e)))
    | .ok (session, d) =>
      let ending := session.run d c.standardInput
      (begun ++ ending.notices, .ok ending)

/-- Carries out a call. -/
def run (c : Call) : Result :=
  match CommandLine.parse c.arguments with
  | .error e =>
    if e.isRequest then ⟨0, e.message, "", c.disk⟩ else ⟨2, "", refusal e, c.disk⟩
  | .ok o =>
    let (filter, complaints) := filterOf c.surroundings o.verbosity
    let (notices, outcome) := carryOut c o
    let told := String.join (complaints.map (· ++ "\n")) ++
      String.join ((notices.filter filter.shows).map Notice.line)
    match outcome with
    | .error text => ⟨1, "", told ++ text, c.disk⟩
    | .ok ending =>
      ⟨if ending.success then 0 else 1, String.ofList ending.standardOutput, told, ending.disk⟩

end Program

end BuildMarkers
