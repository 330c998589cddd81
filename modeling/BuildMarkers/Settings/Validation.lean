import BuildMarkers.Settings.Basic
import BuildMarkers.Text.Quoted
/-!
# Validation

What settings have to satisfy beyond their form. The projects, the links of each
project and the Cygwin settings have a validator of their own, and the one for the
whole puts their reports together. Each of them collects what it finds in the order
of the settings, and reports one error as it is and several as one; what is several
already is taken apart when it is collected. A name or a link path that is empty is
not also a duplicate.
-/

namespace BuildMarkers

namespace Settings

/-- A rule that the settings break, with the field that breaks it. -/
inductive Violation where
  | emptyText (field : String)
  | relativePath (field : String) (path : String)
  | duplicate (field : String) (index : Nat)
  /-- A Cygwin point does not start with a slash. -/
  | invalidPoint (field : String) (point : String)
  deriving DecidableEq, Repr

namespace Violation

/-- The text of the violation. -/
def message : Violation → String
  | .emptyText field => "Empty string value for field '" ++ field ++ "'"
  | .relativePath field path => "Path is not absolute for field '" ++ field ++ "': '" ++ path ++ "'"
  | .duplicate field index => "Duplicate " ++ field ++ " entry at: " ++ toString index
  | .invalidPoint field point =>
    "Invalid prefix for field '" ++ field ++ "': '" ++ point ++ "' does not start with '/'"

/-- A record in its written form: a name and fields in braces. -/
def record (name : String) (fields : List (String × String)) : String :=
  name ++ " \x7b " ++ ", ".intercalate (fields.map fun f => f.1 ++ ": " ++ f.2) ++ " \x7d"

/-- The violation as a record, the form in which several are listed. -/
def asRecord : Violation → String
  | .emptyText field => record "EmptyString" [("field", Text.quoted field)]
  | .relativePath field path =>
    record "RelativePath" [("field", Text.quoted field), ("path", Text.quoted path)]
  | .duplicate field index =>
    record "DuplicateEntry" [("field", Text.quoted field), ("idx", toString index)]
  | .invalidPoint field point =>
    record "InvalidPrefix" [("field", Text.quoted field), ("prefix", Text.quoted point)]

end Violation

/-- Why settings are not valid: for one violation or for several errors. -/
inductive Invalid where
  | single (violation : Violation)
  | multiple (errors : List Invalid)
  deriving Repr

instance : (report : Except Invalid Unit) → Decidable (report = .ok ())
  | .ok () => .isTrue rfl
  | .error _ => .isFalse fun h => by cases h

namespace Invalid

/-- The error as a record, the form in which several are listed. -/
def asRecord : Invalid → String
  | .single v => v.asRecord
  | .multiple errors =>
    Violation.record "Multiple" [("errors", "[" ++ ", ".intercalate (errors.map asRecord) ++ "]")]

/-- The text of the error. -/
def message : Invalid → String
  | .single v => v.message
  | .multiple errors =>
    "Multiple validation errors: [" ++ ", ".intercalate (errors.map asRecord) ++ "]"

end Invalid

/-- The errors that a validator has found so far, the first one in front. -/
structure Collector where
  errors : List Invalid
  deriving Repr

namespace Collector

/-- The collector in which nothing is. -/
def new : Collector := ⟨[]⟩

/-- The collector with one more error. -/
def add (c : Collector) (error : Invalid) : Collector := ⟨c.errors ++ [error]⟩

/-- The collector with what a part of the settings is reported for, several errors one
by one. -/
def addResult (c : Collector) : Except Invalid Unit → Collector
  | .ok () => c
  | .error (.multiple errors) => ⟨c.errors ++ errors⟩
  | .error error => c.add error

/-- The report on what has been collected. -/
def finish (c : Collector) : Except Invalid Unit :=
  match c.errors with
  | [] => .ok ()
  | [error] => .error error
  | errors => .error (.multiple errors)

/-- A key has to be neither empty nor among those that were seen before. It is seen from
then on, unless it is empty. -/
def addKey {α : Type} [DecidableEq α] (c : Collector) (isEmpty : α → Bool)
    (emptyField listField : String) (seen : List α) (index : Nat) (key : α) :
    Collector × List α :=
  if isEmpty key then (c.add (.single (.emptyText emptyField)), seen)
  else if key ∈ seen then (c.add (.single (.duplicate listField index)), seen)
  else (c, key :: seen)

/-- The path has to be absolute. -/
def addPath (c : Collector) (field : String) (path : Path) : Collector :=
  if path.isAbsolute then c else c.add (.single (.relativePath field path.display))

/-- A Cygwin point has to start with a slash. -/
def addPoint (c : Collector) (field point : String) : Collector :=
  if point.toList.head? = some '/' then c else c.add (.single (.invalidPoint field point))

end Collector

/-- A field with an index, as in `links[2]`. -/
def indexed (field : String) (index : Nat) : String := field ++ "[" ++ toString index ++ "]"

/-- The path of a link as far as it distinguishes it from others: without
slashes at either end. -/
def linkKey (link : LinkedResource) : List Char := Text.stripBoth (· = '/') link.path.toList

/-- What is collected, and the keys that are seen, after the link with the index. -/
def checkLink (field : String) :
    Collector × List (List Char) → LinkedResource × Nat → Collector × List (List Char)
  | (c, seen), (link, index) =>
    let field' := indexed (field ++ ".links") index
    let (c, seen) :=
      c.addKey List.isEmpty (field' ++ ".path") (field ++ ".links") seen index (linkKey link)
    (c.addPath (field' ++ ".target") link.target, seen)

/-- The report on the links of a project. -/
def validateLinks (field : String) (links : List LinkedResource) : Except Invalid Unit :=
  (links.zipIdx.foldl (checkLink field) (.new, [])).1.finish

/-- What is collected, and the names that are seen, after the project with the index. -/
def checkProject : Collector × List String → Project × Nat → Collector × List String
  | (c, seen), (p, index) =>
    let field := indexed "workspace.projects" index
    let (c, seen) :=
      c.addKey Text.isBlankText (field ++ ".name") "workspace.projects" seen index p.name
    ((c.addPath (field ++ ".location") p.location).addResult (validateLinks field p.links), seen)

/-- The report on the projects. -/
def validateProjects (ps : List Project) : Except Invalid Unit :=
  (ps.zipIdx.foldl checkProject (.new, [])).1.finish

/-- What is collected after the mount with the index. -/
def checkMount (c : Collector) : MountSetting × Nat → Collector
  | (m, index) =>
    let field := indexed "cygwin.mounts" index
    let c := c.addPoint (field ++ ".prefix") m.point
    if m.target.isEmpty then c.add (.single (.emptyText (field ++ ".target"))) else c

/-- The report on the Cygwin settings. -/
def validateCygwin (s : CygwinSettings) : Except Invalid Unit :=
  let c := s.drives.elim Collector.new (Collector.new.addPoint "cygwin.cygdrive")
  (s.mounts.zipIdx.foldl checkMount c).finish

/-- Whether the settings are valid, and if not, why. -/
def validate (s : Settings) : Except Invalid Unit :=
  ((Collector.new.addResult (validateProjects s.projects)).addResult
    (validateCygwin s.cygwin)).finish

end Settings

end BuildMarkers
