import BuildMarkers.Path.Basic
import BuildMarkers.Path.Route
/-!
# File references

What a build log says about a file: an absolute path, a path from the working
directory, or a bare name. A reference is read in three ways: as a path of the
host (`path`), as segments between separators of either kind (`segments`), and
as the segments that the end of a file's own path has to match
(`trailingSegments`).
-/

namespace BuildMarkers

/-- A file reference without the white space around it. -/
structure Reference where
  text : String
  deriving DecidableEq, Repr

namespace Reference

/-- The reference that a log prints as `s`. -/
def ofString (s : String) : Reference := ⟨Text.trim s⟩

/-- Both slashes separate, since tools mix them freely. -/
def isSeparator (c : Char) : Bool := c = '/' || c = '\\'

/-- The segments between separators, empty ones dropped. -/
def segments (r : Reference) : List String := Text.segments isSeparator r.text

/-- One ASCII letter and a colon. -/
def isDrive (segment : String) : Bool :=
  match segment.toList with
  | [letter, ':'] => letter.isAlpha
  | _ => false

/-- The segment cannot start what the end of a path has to match. -/
def isDecoration (segment : String) : Bool :=
  segment = "." || segment = ".." || isDrive segment

/-- The segments that the end of a file's path has to match: no decoration in
front, no `.` at all. -/
def trailingSegments (r : Reference) : List String :=
  (r.segments.dropWhile isDecoration).filter (· ≠ ".")

/-- The reference is a name without any directory. -/
def isBare (r : Reference) : Bool := r.segments.length = 1

/-- The reference as a path of the host. -/
def path (r : Reference) : Path := .ofString r.text

/-- The steps that the segments stand for. -/
def steps (r : Reference) : Route :=
  r.segments.filterMap fun s => Component.ofPiece? (Text.encode s)

end Reference

/-! ## Cygwin paths

A tool under Cygwin prints `/cygdrive/c/work/main.c` or a path below a mount
point. The first form names a drive by a letter, the second stands for the
target of the mount. Of several mounts the longest fitting point counts, and of
equal points the first. How long a point is, is counted in bytes. -/

/-- A directory that Cygwin shows at a place of its own. -/
structure Mount where
  /-- Where Cygwin shows the directory. -/
  point : List Char
  /-- The directory on the host. -/
  target : Path
  deriving DecidableEq, Repr

/-- How Cygwin paths stand for paths of the host. -/
structure CygwinMap where
  /-- What stands in front of the drive letters, if drives are mapped. -/
  drives : Option (List Char)
  /-- The mounts, the longest points first. -/
  mounts : List Mount
  deriving DecidableEq, Repr, Inhabited

namespace CygwinMap

/-- The point without slashes at its end; one of slashes only is the root. -/
def trimPoint (point : String) : List Char :=
  let trimmed := Text.dropTrailing (· = '/') point.toList
  if trimmed.isEmpty then ['/'] else trimmed

/-- The map with this drive point and these mounts. -/
def make (drives : Option String) (mounts : List (String × Path)) : CygwinMap where
  drives := drives.map trimPoint
  mounts := (mounts.map fun m => ⟨trimPoint m.1, m.2⟩).mergeSort fun a b =>
    decide (Text.byteLength b.point ≤ Text.byteLength a.point)

/-- The text after `point`, if `s` starts with it. -/
def after? (point s : List Char) : Option (List Char) :=
  if point.isPrefixOf s then some (s.drop point.length) else none

/-- The drive letter of the text and what follows it and its slash. -/
def drive? (m : CygwinMap) (s : List Char) : Option (Char × List Char) := do
  let point ← m.drives
  let rest ← after? (point ++ ['/']) s
  match rest with
  | [letter] => if letter.isAlpha then some (letter, []) else none
  | letter :: '/' :: rest => if letter.isAlpha then some (letter, rest) else none
  | _ => none

/-- The target of the mount that the text is below and what follows the
point. -/
def mount? (m : CygwinMap) (s : List Char) : Option (Path × List Char) :=
  m.mounts.findSome? fun mount => do
    let rest ← after? mount.point s
    if rest.isEmpty || rest.head? == some '/' then some (mount.target, rest) else none

/-- The text has one of the mapped forms. -/
def recognizes (m : CygwinMap) (text : String) : Bool :=
  (m.drive? text.toList).isSome || (m.mount? text.toList).isSome

/-- The path on the host for a text of a mapped form. -/
def translate? (m : CygwinMap) (text : String) : Option Path :=
  match m.drive? text.toList with
  | some (letter, rest) => some (.ofString (String.ofList (letter.toUpper :: ':' :: '/' :: rest)))
  | none =>
    (m.mount? text.toList).map fun (target, rest) =>
      target.join (.ofString ("/".intercalate (Text.segments (· = '/') (String.ofList rest))))

end CygwinMap

end BuildMarkers
