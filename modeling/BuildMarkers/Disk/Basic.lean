import BuildMarkers.Path.Route
/-!
# The disk

A disk is a finite list of entries, each at a place, together with the
directory in which the program was started. A place is the list of names from
the root down. Where several entries claim one place the first counts, and the
root is a directory whatever the list says, so every list is a disk.
`canonicalize` carries a path out name by name, following symbolic links; an
entry is reached only through directories, and no name is followed from one
that is closed. How many links may be followed on one way is up to the disk. A
path may have any length where it is carried out for its place
(`canonicalize`), and not where something is accessed (`lookup`).
-/

namespace BuildMarkers

/-! ## Faults of the disk

The reasons for which the disk refuses an operation, and their texts. -/

/-- Why the disk refuses an operation. -/
inductive Fault where
  /-- An entry on the way does not exist. -/
  | notFound
  /-- A directory on the way is closed, or may not be read. -/
  | accessDenied
  /-- Something other than a directory is used as one. -/
  | notDirectory
  /-- A directory stands where a file is needed. -/
  | isDirectory
  /-- The symbolic links lead back to themselves, or there are too many on the
  way. -/
  | linkLoop
  /-- A name has more than 255 bytes, or the path of an access more than 4095. -/
  | nameTooLong
  /-- The path ends in the root, `.` or `..`, which nothing can replace. -/
  | busy
  /-- The device failed. -/
  | device
  /-- A path that is looked up has a NUL byte in it. -/
  | nulByte
  /-- A path that something is moved to has a NUL byte in it. -/
  | invalidArgument
  deriving DecidableEq, Repr

namespace Fault

/-- The text of the fault. -/
def message : Fault → String
  | .notFound => "No such file or directory (os error 2)"
  | .accessDenied => "Permission denied (os error 13)"
  | .notDirectory => "Not a directory (os error 20)"
  | .isDirectory => "Is a directory (os error 21)"
  | .linkLoop => "Too many levels of symbolic links (os error 40)"
  | .nameTooLong => "File name too long (os error 36)"
  | .busy => "Device or resource busy (os error 16)"
  | .device => "Input/output error (os error 5)"
  | .nulByte => "file name contained an unexpected NUL byte"
  | .invalidArgument => "Invalid argument (os error 22)"

end Fault

/-! ## Files, directories and links -/

/-- The bytes of a file, and how reading it ends. -/
structure FileData where
  /-- The bytes that reading delivers. -/
  content : List UInt8
  /-- The fault with which the file refuses to be opened. -/
  openFault : Option Fault := none
  /-- The fault that comes after the content in place of its end. -/
  readFault : Option Fault := none
  deriving DecidableEq, Repr

/-- An entry of the disk. -/
inductive Node where
  | directory
  | file (data : FileData)
  /-- A symbolic link with its target as written. -/
  | link (target : Path)
  deriving DecidableEq, Repr

/-- The names that lead from the root to an entry. -/
abbrev Place := List FileName

-- Every module decides with this one proof whether a place is in a list.
instance : LawfulBEq Place := inferInstanceAs (LawfulBEq (List FileName))

/-- How using a directory fails, as far as it does. -/
structure DirectoryFaults where
  /-- No name can be followed from the directory. -/
  closed : Bool := false
  /-- The fault with which the directory refuses to be read. -/
  readFault : Option Fault := none
  /-- The names that reading the directory does not come to. -/
  unread : List FileName := []
  /-- The faults that reading comes to instead of entries. -/
  entryFaults : List Fault := []
  /-- The entries that do not tell what they are, with the fault of each. -/
  kindFaults : List (FileName × Fault) := []
  deriving DecidableEq, Repr

/-- The files, directories and symbolic links that there are. -/
structure Disk where
  /-- The entries; the first one at a place counts. -/
  entries : List (Place × Node)
  /-- The directory that relative paths start from. -/
  workingDirectory : Place
  /-- The number of symbolic links that may be followed on one way, if there is
  a limit. -/
  linkLimit : Option Nat := some 40
  /-- How writing a report onto the disk fails: how many of its parts are taken,
  and the fault that comes then. -/
  writeFault : Option (Nat × Fault) := none
  /-- The directories whose use fails in some way; the first one at a place
  counts. -/
  directoryFaults : List (Place × DirectoryFaults) := []
  deriving Repr

namespace Disk

/-- What is at the place. The root is a directory. -/
def node? (d : Disk) (p : Place) : Option Node :=
  if p.isEmpty then some .directory else d.entries.lookup p

/-- How using the directory fails. -/
def faultsAt (d : Disk) (p : Place) : DirectoryFaults := (d.directoryFaults.lookup p).getD {}

/-- No name can be followed from the directory. -/
def isClosed (d : Disk) (p : Place) : Bool := (d.faultsAt p).closed

/-- The fault with which the entry of the directory refuses to tell what it is. -/
def kindFault? (d : Disk) (directory : Place) (n : FileName) : Option Fault :=
  (d.faultsAt directory).kindFaults.lookup n

/-- The number of bytes that a name may have. -/
def nameLimit : Nat := 255

/-- The number of bytes that the path of an access may have. -/
def pathLimit : Nat := 4095

/-- A walk that is on its way. -/
structure Walk where
  /-- Where it stands. -/
  place : Place
  /-- The number of symbolic links that it has followed. -/
  links : Nat
  deriving DecidableEq, Repr

namespace Walk

/-- A walk that sets out from the place. -/
def setOut (p : Place) : Walk := ⟨p, 0⟩

/-- The walk at the place from which a path is carried out that it meets. -/
def startOf (w : Walk) (p : Path) : Walk := if p.isAbsolute then { w with place := [] } else w

end Walk

/-- One step of a walk, by one piece of a path. `follow` carries out the target
of a symbolic link. -/
def step (d : Disk) (follow : Walk → Path → Except Fault Walk) (w : Walk)
    (piece : List UInt8) : Except Fault Walk :=
  match d.node? w.place with
  | none => .error .notFound
  | some (.file _) | some (.link _) => .error .notDirectory
  | some .directory =>
    if Path.isIdle piece then .ok w
    else if piece = [dot, dot] then .ok { w with place := w.place.dropLast }
    else if d.isClosed w.place then .error .accessDenied
    else if nameLimit < piece.length then .error .nameTooLong
    else
      let next := w.place ++ [⟨piece⟩]
      match d.node? next with
      | none => .error .notFound
      | some (.link target) =>
        if d.linkLimit.any (· ≤ w.links) then .error .linkLoop
        else follow { w with links := w.links + 1 } target
      | some _ => .ok { w with place := next }

/-- A walk over the pieces of a path. -/
def walk (d : Disk) (follow : Walk → Path → Except Fault Walk) (w : Walk)
    (pieces : List (List UInt8)) : Except Fault Walk :=
  pieces.foldlM (d.step follow) w

/-- Carries out a path that a walk meets, links inside links at most `depth`
deep. -/
def follow (d : Disk) : Nat → Walk → Path → Except Fault Walk
  | 0, _, _ => .error .linkLoop
  | depth + 1, w, p =>
    if p.isEmpty then .error .notFound
    else d.walk (d.follow depth) (w.startOf p) p.pieces

/-- The number of symbolic links. A chain of links that is longer visits one
of them twice and never ends. -/
def linkCount (d : Disk) : Nat :=
  d.entries.countP fun e => match e.2 with
    | .link _ => true
    | _ => false

/-- The place to which the path leads, all symbolic links followed. -/
def canonicalize (d : Disk) (p : Path) : Except Fault Place := do
  if p.bytes.contains 0 then throw .nulByte
  let w ← d.follow (d.linkCount + 1) (.setOut d.workingDirectory) p
  return w.place

/-- The path is one by which a file can be accessed. -/
def checkPath (p : Path) : Except Fault Unit :=
  if p.bytes.contains 0 then .error .nulByte
  else if pathLimit < p.bytes.length then .error .nameTooLong
  else .ok ()

/-- The place that is accessed by the path. -/
def lookup (d : Disk) (p : Path) : Except Fault Place := do
  checkPath p
  d.canonicalize p

/-- What is accessed by the path. -/
def nodeAt? (d : Disk) (p : Path) : Option Node :=
  match d.lookup p with
  | .ok place => d.node? place
  | .error _ => none

/-- The path leads to something. -/
def exists? (d : Disk) (p : Path) : Bool := (d.nodeAt? p).isSome

/-- The place is a directory. -/
def isDirectory (d : Disk) (p : Place) : Bool := d.node? p == some .directory

/-- The path leads to a file. -/
def isFile (d : Disk) (p : Path) : Bool :=
  match d.nodeAt? p with
  | some (.file _) => true
  | _ => false

/-- The names of the entries of a directory in the order of their bytes. -/
def names (d : Disk) (directory : Place) : List FileName :=
  let below := d.entries.filterMap fun e =>
    if e.1.dropLast = directory then e.1.getLast? else none
  (below.eraseDups).mergeSort fun a b => decide (a.bytes ≤ b.bytes)

/-- Reads the directory that the path leads to: the names that reading comes to,
in the order of their bytes, and the faults that it comes to instead of
others. -/
def readDirectory (d : Disk) (p : Path) : Except Fault (List Fault × List FileName) := do
  let place ← d.lookup p
  if d.isDirectory place then
    let faults := d.faultsAt place
    match faults.readFault with
    | some fault => .error fault
    | none => .ok (faults.entryFaults, (d.names place).filter (· ∉ faults.unread))
  else .error .notDirectory

/-- Opens what the path leads to for reading. A directory opens, and reading
it fails. -/
def openFile (d : Disk) (p : Path) : Except Fault FileData := do
  let place ← d.lookup p
  match d.node? place with
  | some (.file data) =>
    match data.openFault with
    | some fault => .error fault
    | none => .ok data
  | some .directory => .ok { content := [], readFault := some .isDirectory }
  | _ => .error .notFound

end Disk

/-! ## Spellings of a location

One place of the disk has several spellings where symbolic links are about.
`spellings` lists those that a route is looked up by: the route as it is,
normalized; then with the directory resolved that holds its last name, so a
link that is itself meant stays itself; then fully resolved. -/

namespace Disk

/-- The route of the place that the route leads to. -/
def resolved? (d : Disk) (r : Route) : Option Route :=
  (d.canonicalize r.toPath).toOption.map .ofNames

/-- The route with everything before its last name resolved. -/
def resolvedParent? (d : Disk) (r : Route) : Option Route :=
  match r.getLast? with
  | some (.name n) => (d.resolved? r.dropLast).map (· ++ [.name n])
  | _ => none

/-- The spellings by which the route is looked up, each once. -/
def spellings (d : Disk) (r : Route) : List Route :=
  let lexical := r.normalize
  (lexical :: [d.resolvedParent? lexical, d.resolved? lexical].filterMap id).eraseDups

end Disk

end BuildMarkers
