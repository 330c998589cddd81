import BuildMarkers.Text.Basic
import BuildMarkers.Text.Case
/-!
# Diagnostic lines

A diagnostic has the form `file:line[:column]: [severity:] message`. The file
runs up to a colon, except that one letter and a colon in front may be a drive.
Where a line has several readings the drive comes before none, and a column
before none; a reading needs a message without a line feed. The numbers are
ASCII digits, and the blanks between the parts are ASCII blanks.
-/

namespace BuildMarkers

/-! ## Severity

How grave a diagnostic is. A build log says it by a keyword; a word that says
nothing of the kind counts as an error. -/

/-- How grave a diagnostic is. -/
inductive Severity where
  | error
  | warning
  | info
  deriving DecidableEq, Repr

namespace Severity

/-- The severity that a keyword names, in any letter case and with any white
space around it. -/
def ofKeyword (keyword : String) : Severity :=
  let word := Text.lower (Text.trim keyword)
  if word = "warning" then .warning
  else if word = "note" || word = "info" then .info
  else .error

/-- The word for the severity in the output. -/
def label : Severity → String
  | .error => "error"
  | .warning => "warning"
  | .info => "info"

end Severity

/-! ## Diagnostics -/

/-- A diagnostic of a build log. -/
structure Diagnostic where
  /-- The file as the log refers to it. -/
  reference : String
  /-- The line in the file. -/
  line : UInt32
  /-- The column in the line, where one is given that is not too large. -/
  column : Option UInt32
  severity : Severity
  /-- The message after the keyword. -/
  description : String
  deriving DecidableEq, Repr

namespace Diagnostic

/-- The parts of a diagnostic line as they stand there. -/
structure Reading where
  file : List Char
  /-- The digits of the line number. -/
  line : List Char
  /-- The digits of the column. -/
  column : Option (List Char)
  /-- The keyword in front of the message. -/
  keyword : Option String
  message : List Char
  deriving DecidableEq, Repr

/-- The keywords that may stand in front of a message. -/
def keywords : List String := ["fatal error", "error", "warning", "note", "info"]

/-- The text after `start`, if `s` starts with it. -/
def stripStart? (start s : List Char) : Option (List Char) :=
  if start.isPrefixOf s then some (s.drop start.length) else none

/-- The text after the keyword, the colon that follows it and the blanks on
both sides of the colon. -/
def afterKeyword? (keyword : String) (s : List Char) : Option (List Char) := do
  let rest ← stripStart? keyword.toList s
  match rest.dropWhile Text.isAsciiBlank with
  | ':' :: rest => some (rest.dropWhile Text.isAsciiBlank)
  | _ => none

/-- The keyword that stands in front and the text after it. -/
def keyword? (s : List Char) : Option (String × List Char) :=
  keywords.findSome? fun k => (afterKeyword? k s).map (k, ·)

/-- The keyword and the message of the text after the last colon of the
numbers. -/
def message? (s : List Char) : Option (Option String × List Char) :=
  let s := s.dropWhile Text.isAsciiBlank
  let (keyword, message) :=
    match keyword? s with
    | some (k, rest) => (some k, rest)
    | none => (none, s)
  if message.contains '\n' then none else some (keyword, message)

/-- The digits between a colon and a colon, and the text from the second
colon on. -/
def number? (s : List Char) : Option (List Char × List Char) :=
  match s with
  | ':' :: rest =>
    let digits := rest.takeWhile Char.isDigit
    match digits, rest.dropWhile Char.isDigit with
    | [], _ => none
    | _, ':' :: after => some (digits, ':' :: after)
    | _, _ => none
  | _ => none

/-- The reading of the text after the file, with the column that is given. -/
def finish? (file line : List Char) (column : Option (List Char)) (s : List Char) :
    Option Reading := do
  let (keyword, message) ← message? (s.drop 1)
  return { file, line, column, keyword, message }

/-- The reading of the text after the file. -/
def afterFile? (file s : List Char) : Option Reading := do
  let (line, rest) ← number? s
  let withColumn := do
    let (column, rest) ← number? rest
    finish? file line (some column) rest
  withColumn <|> finish? file line none rest

/-- The reading in which the file follows `drive` and runs up to the next
colon. -/
def afterDrive? (drive s : List Char) : Option Reading :=
  let name := s.takeWhile (· ≠ ':')
  if name.isEmpty then none else afterFile? (drive ++ name) (s.dropWhile (· ≠ ':'))

/-- The reading of a line in which the file starts with a drive. -/
def withDrive? : List Char → Option Reading
  | letter :: ':' :: rest => if letter.isAlpha then afterDrive? [letter, ':'] rest else none
  | _ => none

/-- The parts of a line that is a diagnostic. -/
def reading? (s : List Char) : Option Reading := withDrive? s <|> afterDrive? [] s

/-- The number that the digits write. -/
def valueOf (digits : List Char) : Nat :=
  digits.foldl (fun n c => n * 10 + (c.toNat - '0'.toNat)) 0

/-- The number that the digits write, if 32 bits hold it. -/
def number32? (digits : List Char) : Option UInt32 :=
  let n := valueOf digits
  if n < UInt32.size then some (UInt32.ofNat n) else none

/-- The diagnostic of a reading. The file and the message must not be blank and
the line must be a number of 32 bits; a column that is none is left out. -/
def ofReading? (r : Reading) : Option Diagnostic := do
  let reference := Text.trimChars r.file
  let description := Text.trimChars r.message
  if reference.isEmpty || description.isEmpty then none
  else
    let line ← number32? r.line
    return {
      reference := String.ofList reference
      line
      column := r.column.bind number32?
      severity := (r.keyword.map Severity.ofKeyword).getD .error
      description := String.ofList description }

/-- The diagnostic that the line is, if it is one. -/
def ofLine? (s : List Char) : Option Diagnostic := reading? s >>= ofReading?

end Diagnostic

end BuildMarkers
