import BuildMarkers.Log.Diagnostic
import BuildMarkers.Path.Route
/-!
# Directory lines

A recursive make tells where it works: `make[1]: Entering directory 'lib'` and
a line with `Leaving` on the way back. The program may be `make`, `gmake` or
`mmake`, with a path or a hyphenated word in front, `.exe` behind it and its
depth in brackets. The directory stands between an opening quote and the quote
that ends the line, and may hold quotes itself.
-/

namespace BuildMarkers

/-- What a directory line tells. -/
inductive DirectoryChange where
  | enter (directory : String)
  | leave (directory : String)
  deriving DecidableEq, Repr

namespace DirectoryChange

/-- The text before `ending`, if `s` ends with it. -/
def stripEnd? (ending s : List Char) : Option (List Char) :=
  (Diagnostic.stripStart? ending.reverse s.reverse).map List.reverse

/-- The program without its depth in brackets. -/
def dropDepth (program : List Char) : List Char :=
  match stripEnd? [']'] program with
  | none => program
  | some inner =>
    let digits := inner.reverse.takeWhile Char.isDigit
    match digits, inner.reverse.dropWhile Char.isDigit with
    | [], _ => program
    | _, '[' :: before => before.reverse
    | _, _ => program

/-- The program without `.exe`. -/
def dropExe (program : List Char) : List Char := (stripEnd? ".exe".toList program).getD program

/-- The character ends what may stand in front of the name of a program. -/
def endsFront (c : Char) : Bool := c = '/' || c = '\\' || c = '-'

/-- Nothing, or a text whose last character ends it. -/
def isFront (s : List Char) : Bool :=
  match s.getLast? with
  | none => true
  | some c => endsFront c

/-- The word is the name of a make program. -/
def isMake (program : List Char) : Bool :=
  match stripEnd? "make".toList (dropExe (dropDepth program)) with
  | none => false
  | some front =>
    isFront front ||
      match front.getLast? with
      | some c => (c = 'g' || c = 'm') && isFront front.dropLast
      | none => false

/-- The character may open a directory. -/
def isOpeningQuote (c : Char) : Bool := c = '\x60' || c = '\x27' || c = '"'

/-- The character may close a directory. -/
def isClosingQuote (c : Char) : Bool := c = '\x27' || c = '"'

/-- The directory between the quotes, which the rest of the line holds and
blanks may follow. -/
def quotedDirectory? (s : List Char) : Option String :=
  match s with
  | [] => none
  | c :: rest =>
    let body := Text.dropTrailing Text.isAsciiBlank rest
    if isOpeningQuote c && body.getLast?.any isClosingQuote && !body.dropLast.contains '\n' then
      some (String.ofList body.dropLast)
    else none

/-- The directory line that the line is, if it is one. -/
def ofLine? (s : List Char) : Option DirectoryChange :=
  let word := s.takeWhile fun c => !Text.isAsciiBlank c
  let rest := s.dropWhile fun c => !Text.isAsciiBlank c
  match stripEnd? [':'] word with
  | none => none
  | some program =>
    if isMake program then
      match Diagnostic.stripStart? " Entering directory ".toList rest with
      | some rest => (quotedDirectory? rest).map .enter
      | none =>
        match Diagnostic.stripStart? " Leaving directory ".toList rest with
        | some rest => (quotedDirectory? rest).map .leave
        | none => none
    else none

end DirectoryChange

/-! ## The trail of a recursive make

A make that works in one directory after the other leaves a trail: where it
started and the directories that it entered and did not leave yet. A relative
file reference is meant from the last of them. Leaving more often than
entering stays where the trail started. -/

/-- The directories that a make has entered. -/
structure Trail where
  /-- Where the make started. -/
  base : Route
  /-- The directories entered and not left, the last one first. -/
  entered : List Route
  deriving DecidableEq, Repr

namespace Trail

/-- The trail that starts in the directory. -/
def start (base : Route) : Trail := ⟨base.normalize, []⟩

/-- The directory that relative references are meant from. -/
def current (t : Trail) : Route := t.entered.headD t.base

/-- The trail one directory further, a relative one being meant from the
current one. -/
def enter (t : Trail) (directory : Path) : Trail :=
  { t with entered := (t.current.join directory.route).normalize :: t.entered }

/-- The trail without its last directory. -/
def leave (t : Trail) : Trail := { t with entered := t.entered.tail }

/-- The trail after a directory change. What is left is always the last
directory, whichever the change names. -/
def follow (t : Trail) : DirectoryChange → Trail
  | .enter directory => t.enter (.ofString directory)
  | .leave _ => t.leave

/-- The number of directories entered and not left. -/
def depth (t : Trail) : Nat := t.entered.length

end Trail

end BuildMarkers
