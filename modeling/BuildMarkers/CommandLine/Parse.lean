import BuildMarkers.CommandLine.Usage
/-!
# Reading a command line

The arguments are read from left to right. An option that takes its value from
the next argument is open until the next option or the end of the line settles
it: only then is it found to lack a value or to be repeated. So an argument
that is unknown is reported before an open option is. After `--` every argument
is unknown, since there are no operands.
-/

namespace BuildMarkers

namespace CommandLine

/-- What has been read so far. -/
structure Progress where
  /-- The options that are settled, with their values. -/
  values : List (ValueOption × String)
  verbosity : Nat
  /-- The option that is open, and its value once there is one. -/
  pending : Option (ValueOption × Option String)
  /-- The argument `--` has been read. -/
  ended : Bool
  deriving Repr

/-- Nothing has been read. -/
def Progress.start : Progress := ⟨[], 0, none, false⟩

/-- Gives the option its value, once. -/
def store (p : Progress) (o : ValueOption) (value : String) : Except UsageError Progress :=
  if p.values.any (·.1 = o) then .error (.repeated o)
  else .ok { p with values := p.values ++ [(o, value)] }

/-- Settles the open option. -/
def settle (p : Progress) : Except UsageError Progress :=
  match p.pending with
  | none => .ok p
  | some (o, none) => .error (.missingValue o)
  | some (o, some value) => store { p with pending := none } o value

/-- Carries out an option that takes no value. -/
def switch (p : Progress) (s : Switch) : Except UsageError Progress := do
  let p ← settle p
  match s with
  | .verbose => return { p with verbosity := min (p.verbosity + 1) 255 }
  | .help => throw .help
  | .version => throw .version

/-- Opens an option whose value is the next argument. -/
def openOption (p : Progress) (o : ValueOption) : Except UsageError Progress := do
  let p ← settle p
  return { p with pending := some (o, none) }

/-- Carries out an option with its value attached. -/
def attached (p : Progress) (o : ValueOption) (value : List Char) : Except UsageError Progress := do
  let p ← settle p
  store p o (String.ofList value)

/-- Reads `--word` and `--word=value`, without the hyphens. -/
def long (p : Progress) (s : List Char) : Except UsageError Progress :=
  let word := s.takeWhile (· ≠ '=')
  let value? := (s.dropWhile (· ≠ '=')).tail?
  match ValueOption.all.find? (·.word.toList = word),
    Switch.all.find? (·.word.toList = word), value? with
  | some o, _, some value => attached p o value
  | some o, _, none => openOption p o
  | none, some sw, some value => .error (.unneededValue (String.ofList value) sw)
  | none, some sw, none => switch p sw
  | none, none, _ => .error (.unknownArgument (String.ofList ('-' :: '-' :: word)))

/-- Reads letters after one hyphen. A letter that takes a value takes the rest
of the argument, if there is any, without an equals sign in front. -/
def short (p : Progress) : List Char → Except UsageError Progress
  | [] => .ok p
  | c :: rest =>
    match ValueOption.all.find? (·.letter = c), Switch.all.find? (·.letter = c) with
    | some o, _ =>
      match rest with
      | [] => openOption p o
      | '=' :: value => attached p o value
      | value => attached p o value
    | none, some sw =>
      match switch p sw with
      | .ok p => short p rest
      | .error e => .error e
    | none, none => .error (.unknownArgument (String.ofList ['-', c]))

/-- Reads one argument. -/
def argument (p : Progress) (arg : String) : Except UsageError Progress :=
  if p.ended then .error (.unknownArgument arg)
  else
    match arg.toList with
    | ['-', '-'] => .ok { p with ended := true }
    | '-' :: '-' :: s => long p s
    | '-' :: c :: s => short p (c :: s)
    | _ =>
      match p.pending with
      | some (o, none) => .ok { p with pending := some (o, some arg) }
      | _ => .error (.unknownArgument arg)

/-- The options that have been read, if nothing is open. -/
def finish (p : Progress) : Except UsageError Options := do
  let p ← settle p
  return {
    settings := p.values.lookup .settings
    project := p.values.lookup .project
    buildDirectory := p.values.lookup .buildDirectory
    input := .ofName ((p.values.lookup .input).getD Channel.standardName)
    output := .ofName ((p.values.lookup .output).getD Channel.standardName)
    verbosity := p.verbosity }

/-- What the arguments ask for. -/
def parse (args : List String) : Except UsageError Options := do
  finish (← args.foldlM argument .start)

end CommandLine

end BuildMarkers
