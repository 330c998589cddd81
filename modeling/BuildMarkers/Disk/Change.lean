import BuildMarkers.Disk.Basic
/-!
# Changes of the disk

A change acts at one place and leaves every other place as it was. The output
of a run needs three of them: a temporary file under a name that nothing bears,
the text written into it, and its move onto the final name, which replaces a
file or a link there in one step. `addDirectory`, `addFile` and `addLink` lay
out a disk from nothing.
-/

namespace BuildMarkers

namespace Disk

/-- The disk with the node at the place. -/
def put (d : Disk) (p : Place) (n : Node) : Disk :=
  { d with entries := (p, n) :: d.entries.filter (·.1 ≠ p) }

/-- The disk with nothing at the place. -/
def remove (d : Disk) (p : Place) : Disk :=
  { d with entries := d.entries.filter (·.1 ≠ p) }

/-- The decimal digits of a number, six at least. -/
def sixDigits (n : Nat) : List Char :=
  let digits := Nat.toDigits 10 n
  List.replicate (6 - digits.length) '0' ++ digits

/-- The names of temporary files, numbered. -/
def temporaryName (n : Nat) : FileName :=
  .ofString (String.ofList (".buildmatch-".toList ++ sixDigits n ++ ".tmp".toList))

/-- A temporary name that no entry of the directory bears. Among more names
than there are entries one is free. -/
def freshName (d : Disk) (directory : Place) : FileName :=
  let free := (List.range (d.entries.length + 1)).find? fun n =>
    (d.node? (directory ++ [temporaryName n])).isNone
  temporaryName (free.getD 0)

/-- An empty file under a fresh temporary name in the directory, and its
place. All temporary names are equally long, so each stands for the length of
the path. -/
def createTemporary (d : Disk) (directory : Path) : Except Fault (Place × Disk) := do
  checkPath (directory.join ⟨(temporaryName 0).bytes⟩)
  let parent ← d.canonicalize (directory.join ⟨[]⟩)
  if d.isClosed parent then throw .accessDenied
  let place := parent ++ [d.freshName parent]
  return (place, d.put place (.file { content := [] }))

/-- The bytes as the content of the file at the place. -/
def write (d : Disk) (p : Place) (content : List UInt8) : Disk :=
  d.put p (.file { content })

/-- The place that a path names as an entry of a directory, the last name not
followed, for a file to be put there or a link to be read. -/
def entryPlace (d : Disk) (p : Path) : Except Fault Place := do
  if p.isEmpty then throw .notFound
  if p.bytes.contains 0 then throw .invalidArgument
  if pathLimit < p.bytes.length then throw .nameTooLong
  let pieces := Text.dropTrailing (fun piece => piece = []) p.pieces
  match pieces.getLast? with
  | none => throw .busy
  | some last =>
    let start := (Walk.setOut d.workingDirectory).startOf p
    let parent ← d.walk (d.follow d.linkCount) start (pieces.dropLast ++ [[]])
    if last = [dot] || last = [dot, dot] then throw .busy
    if nameLimit < last.length then throw .nameTooLong
    if pieces.length < p.pieces.length then throw .notDirectory
    if d.isClosed parent.place then throw .accessDenied
    return parent.place ++ [⟨last⟩]

/-- The target of the symbolic link that the path names. -/
def readLink (d : Disk) (p : Path) : Except Fault Path := do
  let place ← d.entryPlace p
  match d.node? place with
  | some (.link target) => .ok target
  | some _ => .error .invalidArgument
  | none => .error .notFound

/-- Moves the file at the place onto the name that the path gives. A file or a
link there is replaced, a directory is not. -/
def moveFile (d : Disk) (source : Place) (target : Path) : Except Fault Disk := do
  let place ← d.entryPlace target
  match d.node? place, d.node? source with
  | some .directory, _ => throw .isDirectory
  | _, none => throw .notFound
  | _, some node => return (d.remove source).put place node

/-- Carries out one piece of a path as `step` does, a missing directory being
made on the way. -/
def stepMaking (s : Disk × Walk) (piece : List UInt8) : Except Fault (Disk × Walk) :=
  match s.1.step (s.1.follow s.1.linkCount) s.2 piece with
  | .ok w => .ok (s.1, w)
  | .error .notFound =>
    let place := s.2.place ++ [⟨piece⟩]
    .ok (s.1.put place .directory, { s.2 with place })
  | .error fault => .error fault

/-- The disk with the directories that the pieces of the path name, and the
place of the last. -/
def makeWay (d : Disk) (p : Path) (pieces : List (List UInt8)) : Except Fault (Disk × Place) := do
  let (made, w) ← pieces.foldlM stepMaking (d, (Walk.setOut d.workingDirectory).startOf p)
  return (made, w.place)

/-- The disk with the directory and those above it, and its place. -/
def addDirectory (d : Disk) (p : Path) : Except Fault (Disk × Place) := d.makeWay p p.pieces

/-- The disk with the node at the path, the directories above it made. -/
def addNode (d : Disk) (p : Path) (n : Node) : Except Fault Disk := do
  let (made, parent) ← d.makeWay p p.pieces.dropLast
  match p.pieces.getLast? with
  | none => return made
  | some last => return made.put (parent ++ [⟨last⟩]) n

/-- The disk with the file, written through a link that is there. -/
def addFile (d : Disk) (p : Path) (content : List UInt8) : Except Fault Disk :=
  match d.canonicalize p with
  | .ok place => .ok (d.write place content)
  | .error _ => d.addNode p (.file { content })

/-- The disk with the symbolic link. -/
def addLink (d : Disk) (p target : Path) : Except Fault Disk := d.addNode p (.link target)

end Disk

end BuildMarkers
