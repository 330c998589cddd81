import BuildMarkers.CommandLine.Options
import BuildMarkers.Disk.Change
import BuildMarkers.Resolution.Marker
import BuildMarkers.Session.Stream
/-!
# The destination of a report

A report goes to the standard output or onto a file. A file is replaced in one
step: the report is written into a temporary file beside it, which is moved
onto it when the report is complete, and removed when something fails. So the
file holds a complete report or what it held before. The parts of a report, of
which the disk may refuse one, are its markers, the closing bracket and the line
feed at its end.
-/

namespace BuildMarkers

/-- Where a report goes. -/
inductive Destination where
  | standard
  /-- Onto the target, by way of a temporary file that has a place and a path. -/
  | file (temporary : Place) (path target : Path)
  deriving DecidableEq, Repr

/-- Why no report can be begun. -/
structure CreationError where
  target : Path
  /-- The file that cannot be created. -/
  temporary : Path
  fault : Fault
  deriving DecidableEq, Repr

/-- The text of the error. -/
def CreationError.message (e : CreationError) : String :=
  "Failed to create the output writer " ++ e.target.display ++ ": " ++ e.fault.message ++
    " at path " ++ e.temporary.quoted

/-- Why no report has come about. -/
inductive WriteError where
  /-- The build log cannot be read to its end. -/
  | input (fault : Fault)
  /-- The disk refuses a part of the array. -/
  | serialization (fault : Fault)
  /-- The report cannot be finished in its file or moved onto its target. -/
  | output (target : Path) (fault : Fault)
  deriving DecidableEq, Repr

/-- The text of the error. -/
def WriteError.message : WriteError → String
  | .input fault => "Failed to read the build output: " ++ fault.message
  | .serialization fault => "Failed to serialize the markers: " ++ fault.message
  | .output target fault => "Failed to write the output " ++ target.display ++ ": " ++ fault.message

/-- What writing a report leads to. -/
structure Written where
  disk : Disk
  /-- What appears on the standard output. -/
  standardOutput : List Char
  error : Option WriteError
  deriving Repr

namespace Destination

/-- The directory of a file: what is written before its name, or the working
directory. -/
def directoryOf (target : Path) : Path :=
  match target.parent? with
  | none => ⟨[dot]⟩
  | some parent => if parent.isEmpty then ⟨[dot]⟩ else parent

/-- Opens the channel for a report. -/
def create (d : Disk) (s : Surroundings) : Channel → Except CreationError (Destination × Disk)
  | .standard => .ok (.standard, d)
  | .file name =>
    let target := Path.ofString name
    let directory := s.absolute (directoryOf target)
    match d.createTemporary directory with
    | .ok (temporary, d) =>
      let name := (temporary.getLast?.map FileName.bytes).getD []
      .ok (.file temporary (directory.join ⟨name⟩) target, d)
    | .error fault => .error ⟨target, directory.join ⟨(Disk.temporaryName 0).bytes⟩, fault⟩

/-- The disk when the report is given up. -/
def abandon (d : Disk) : Destination → Disk
  | .standard => d
  | .file temporary _ _ => d.remove temporary

/-- The number of markers that the destination takes, if there is a limit. -/
def room (d : Disk) : Destination → Option Nat
  | .standard => none
  | .file _ _ _ => d.writeFault.map Prod.fst

/-- The error with which the disk refuses a part of the report, where `path` is
the file that it is written into. The line feed comes with whatever is still
held back. -/
def refusal (d : Disk) (path : Path) (markers : List Marker) : Option WriteError :=
  match d.writeFault with
  | none => none
  | some (taken, fault) =>
    if taken ≤ markers.length then some (.serialization fault)
    else if taken = markers.length + 1 then some (.output path fault)
    else none

/-- Writes the report of a delivery. -/
def write (d : Disk) (delivery : Delivery) : Destination → Written
  | .standard =>
    match delivery.fault with
    | none => ⟨d, Report.complete delivery.markers, none⟩
    | some fault => ⟨d, Report.brokenOff delivery.markers, some (.input fault)⟩
  | .file temporary path target =>
    let abandoned := (Destination.file temporary path target).abandon d
    match delivery.fault with
    | some fault => ⟨abandoned, [], some (.input fault)⟩
    | none =>
      match refusal d path delivery.markers with
      | some error => ⟨abandoned, [], some error⟩
      | none =>
        let report := Text.encode (String.ofList (Report.complete delivery.markers))
        match (d.write temporary report).moveFile temporary target with
        | .ok d => ⟨d, [], none⟩
        | .error fault => ⟨abandoned, [], some (.output target fault)⟩

end Destination

end BuildMarkers
