import BuildMarkers.Program.Sight
/-!
# The command line

Carries out a call on the real disk: what the call looks at is read into a disk
value, the call is carried out on that, and the files that it changed are
written back. Everything that is decided is decided by the call.
-/

namespace BuildMarkers

namespace Host

/-- A place as the host writes it. -/
def textOf (place : Place) : String := (Survey.pathOf place).display

/-- Reads what is at the place. A symbolic link is read as a link to where it
leads in the end, and one that leads nowhere as a link to nothing. -/
def readNode (place : Place) (withContent : Bool) : IO (Option Node) := do
  let file := (← IO.currentDir) / textOf place
  try
    match (← file.symlinkMetadata).type with
    | .dir => return some .directory
    | .symlink =>
      try return some (.link (.ofString (← IO.FS.realPath file).toString))
      catch _ => return some (.link ⟨[]⟩)
    | _ =>
      let bytes ← if withContent then IO.FS.readBinFile file else pure .empty
      return some (.file { content := bytes.toList })
  catch _ => return none

/-- What is at the place, read unless the disk has it. -/
def nodeAt (d : Disk) (place : Place) (withContent : Bool) : IO (Option Node × Disk) := do
  match d.node? place, withContent with
  | some (.file _), true | none, _ =>
    match ← readNode place withContent with
    | some node => return (some node, d.put place node)
    | none => return (none, d)
  | known, _ => return (known, d)

/-- Reads what the pieces of a path lead to from a place, with everything on the
way, and tells the place where the path ends. -/
partial def readWay (d : Disk) (here : Place) (withContent : Bool) :
    List (List UInt8) → IO (Option Place × Disk)
  | [] => return (some here, d)
  | piece :: rest => do
    if Path.isIdle piece then readWay d here withContent rest
    else if piece = [dot, dot] then readWay d here.dropLast withContent rest
    else
      let place := here ++ [⟨piece⟩]
      let (node, d) ← nodeAt d place (withContent && rest.isEmpty)
      match node with
      | none => return (none, d)
      | some (.link target) =>
        if target.isEmpty then return (none, d)
        readWay d [] withContent (target.pieces ++ rest)
      | some _ => readWay d place withContent rest

/-- The fault for which the host has failed. -/
def faultOf : IO.Error → Fault
  | .permissionDenied .. => .accessDenied
  | .noFileOrDirectory .. => .notFound
  | _ => .device

/-- The disk on which using the directory fails in one more way. -/
def noteFault (d : Disk) (directory : Place) (note : DirectoryFaults → DirectoryFaults) : Disk :=
  { d with directoryFaults := (directory, note (d.faultsAt directory)) :: d.directoryFaults }

/-- Reads everything below a directory that is not among those walked, links
followed. An entry that is listed and not there when it is looked at is one
that does not tell what it is. -/
partial def readTree (d : Disk) (walked : List Place) (directory : Place) :
    IO (Disk × List Place) := do
  if directory ∈ walked then return (d, walked)
  let mut state := (d, directory :: walked)
  let listed ← ((← IO.currentDir) / textOf directory).readDir.toBaseIO
  match listed with
  | .error e =>
    let fault := faultOf e
    return (noteFault d directory fun faults => { faults with readFault := some fault }, state.2)
  | .ok entries =>
    for entry in entries do
      let name : FileName := .ofString entry.fileName
      let (node, known) ← nodeAt state.1 (directory ++ [name]) false
      if node.isNone then
        let bare := known.put (directory ++ [name]) (.file { content := [] })
        let noted := noteFault bare directory fun faults =>
          { faults with closed := true, kindFaults := (name, .accessDenied) :: faults.kindFaults }
        state := (noted, state.2)
      else
        let (place, d) ← readWay known directory false [name.bytes]
        state := (d, state.2)
        if let some place := place then
          if d.isDirectory place then state ← readTree d state.2 place
    return state

/-- Reads a part of the disk. -/
def readSight (d : Disk) (s : Sight) : IO Disk := do
  let withContent := match s with
    | .content _ => true
    | _ => false
  let (place, d) ← readWay d [] withContent s.path.pieces
  match s, place with
  | .tree _, some place => return (← readTree d [] place).1
  | _, _ => return d

/-- The call with everything on its disk that it looks at, beyond the sights
that have been read. -/
partial def look (c : Program.Call) (known : List Sight) : IO Program.Call := do
  match (Program.sights c).filter (· ∉ known) with
  | [] => return c
  | fresh => look { c with disk := ← fresh.foldlM readSight c.disk } (fresh ++ known)

/-- Writes the files that a call changed, each in one step. -/
def writeBack (before after : Disk) : IO Unit := do
  for (place, node) in after.entries do
    if let .file data := node then
      if before.node? place ≠ some node then
        let target := textOf place
        let temporary := textOf (place.dropLast ++ [Disk.temporaryName (← IO.monoNanosNow)])
        let handle ← IO.FS.Handle.mk temporary .writeNew
        handle.write (ByteArray.mk data.content.toArray)
        handle.flush
        IO.FS.rename temporary target

/-- Reads a stream to its end. -/
partial def readAll (stream : IO.FS.Stream) (bytes : ByteArray) : IO ByteArray := do
  let more ← stream.read 65536
  if more.isEmpty then return bytes else readAll stream (bytes ++ more)

/-- The variables of the environment that matter. -/
def environment : IO (List (String × String)) := do
  let values ← ("HOME" :: "XDG_CONFIG_HOME" :: Surroundings.relevantVariables).mapM fun name => do
    return (← IO.getEnv name).map ((name, ·))
  return values.filterMap id

/-- The call that the host asks for, on an empty disk. -/
def call (arguments : List String) : IO Program.Call := do
  let executable := Path.ofString (← IO.appPath).toString
  let directory := Path.ofString (← IO.currentDir).toString
  let standard : Bool := match CommandLine.parse arguments with
    | .ok o => o.input = .standard
    | .error _ => false
  let bytes ← if standard then readAll (← IO.getStdin) .empty else pure .empty
  let names := directory.pieces.filterMap fun piece => if piece.isEmpty then none else some ⟨piece⟩
  let disk : Disk := { entries := [], workingDirectory := names }
  return ⟨arguments, ⟨executable, directory, ← environment⟩, { content := bytes.toList }, disk⟩

end Host

end BuildMarkers

open BuildMarkers in
/-- Carries out the call that the arguments make. -/
def main (arguments : List String) : IO UInt32 := do
  let call ← Host.look (← Host.call arguments) []
  let result := Program.run call
  Host.writeBack call.disk result.disk
  IO.print result.standardOutput
  IO.eprint result.standardError
  return result.exitCode.toUInt32
