import BuildMarkers.CommandLine.Options
/-!
# Usage

The options that take a value, the texts of help and version, and the reasons
for which a command line is refused.
-/

namespace BuildMarkers

/-- An option that takes a value. -/
inductive ValueOption where
  | settings
  | project
  | buildDirectory
  | input
  | output
  deriving DecidableEq, Repr

namespace ValueOption

/-- All options that take a value. -/
def all : List ValueOption := [.settings, .project, .buildDirectory, .input, .output]

/-- The letter of the option. -/
def letter : ValueOption → Char
  | .settings => 'c'
  | .project => 'p'
  | .buildDirectory => 'd'
  | .input => 'i'
  | .output => 'o'

/-- The word of the option. -/
def word : ValueOption → String
  | .settings => "config"
  | .project => "project"
  | .buildDirectory => "build-dir"
  | .input => "input"
  | .output => "output"

/-- What stands for the value in messages. -/
def placeholder : ValueOption → String
  | .settings | .input | .output => "FILE"
  | .project => "NAME"
  | .buildDirectory => "DIR"

/-- The option as messages show it. -/
def usage (o : ValueOption) : String := "--" ++ o.word ++ " <" ++ o.placeholder ++ ">"

end ValueOption

/-- An option that takes no value. -/
inductive Switch where
  | verbose
  | help
  | version
  deriving DecidableEq, Repr

namespace Switch

/-- All options that take no value. -/
def all : List Switch := [.verbose, .help, .version]

/-- The letter of the option. -/
def letter : Switch → Char
  | .verbose => 'v'
  | .help => 'h'
  | .version => 'V'

/-- The word of the option. -/
def word : Switch → String
  | .verbose => "verbose"
  | .help => "help"
  | .version => "version"

/-- The option as messages show it. The dots say that it may be repeated. -/
def usage : Switch → String
  | .verbose => "--verbose..."
  | .help => "--help"
  | .version => "--version"

end Switch

/-- Why a command line asks for no run. -/
inductive UsageError where
  | unknownArgument (argument : String)
  /-- The option is the last word, or another option follows it. -/
  | missingValue (option : ValueOption)
  | repeated (option : ValueOption)
  | unneededValue (value : String) (switch : Switch)
  /-- The help text is asked for. -/
  | help
  /-- The version is asked for. -/
  | version
  deriving DecidableEq, Repr

/-- The name of the program. -/
def programName : String := "buildmatch"

/-- The version of the program. -/
def programVersion : String := "0.1.0"

/-- The help text. -/
def helpText : String :=
  String.join (helpLines.map (· ++ "\n"))
where
  /-- The lines of the help text. -/
  helpLines : List String := [
    "Matches the file references of a build output to the files of a workspace",
    "",
    "Usage: buildmatch [OPTIONS]",
    "",
    "Options:",
    "  -v, --verbose...       Sets the level of verbosity",
    "  -c, --config <FILE>    Path of the config file",
    "  -p, --project <NAME>   Name of the project which was built",
    "  -d, --build-dir <DIR>  Directory the build was running in [default: project location]",
    "  -i, --input <FILE>     Path of the build output, '-' for the standard input [default: -]",
    "  -o, --output <FILE>    Path of the result file, '-' for the standard output [default: -]",
    "  -h, --help             Print help",
    "  -V, --version          Print version"]

namespace UsageError

/-- The text of the error, or the text that is asked for. -/
def message : UsageError → String
  | .unknownArgument argument => "error: unexpected argument '" ++ argument ++ "' found"
  | .missingValue o => "error: a value is required for '" ++ o.usage ++ "' but none was supplied"
  | .repeated o => "error: the argument '" ++ o.usage ++ "' cannot be used multiple times"
  | .unneededValue value s =>
    "error: unexpected value '" ++ value ++ "' for '" ++ s.usage ++ "' found; no more were expected"
  | .help => helpText
  | .version => programName ++ " " ++ programVersion ++ "\n"

/-- The text is what was asked for, and no error. -/
def isRequest : UsageError → Bool
  | .help | .version => true
  | _ => false

end UsageError

end BuildMarkers
