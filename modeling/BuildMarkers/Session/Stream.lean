import BuildMarkers.Log.BuildLog
import BuildMarkers.Log.DirectoryChange
import BuildMarkers.Resolution.Marker
import BuildMarkers.Resolution.Resolver
/-!
# The stream of markers

A build log is read line by line, and each diagnostic in it becomes a marker as
soon as its line is read. Directory changes move the trail from which the
references after them are meant; all other lines pass without a trace. A log
that cannot be read to its end yields one fault behind the markers of its
complete lines, and nothing after that.

`next` is one step of the stream, `take` the same step with the marker counted
as written, and `drain` takes everything that comes, up to a marker that there is
no room for.
-/

namespace BuildMarkers

/-! ## Statistics

The counts of a run: lines and directory changes of the build log, diagnostics
and what became of their references, and markers written. Counters have 64
bits and wrap. -/

/-- The counts of a run. -/
structure Statistics where
  linesRead : UInt64
  diagnosticsFound : UInt64
  directoryChanges : UInt64
  filesResolved : UInt64
  filesMissing : UInt64
  filesAmbiguous : UInt64
  markersWritten : UInt64
  deriving DecidableEq, Repr

namespace Statistics

/-- Nothing has been counted. -/
def zero : Statistics := ⟨0, 0, 0, 0, 0, 0, 0⟩

/-- Counts a line of the build log. -/
def countLine (s : Statistics) : Statistics := { s with linesRead := s.linesRead + 1 }

/-- Counts a diagnostic. -/
def countDiagnostic (s : Statistics) : Statistics :=
  { s with diagnosticsFound := s.diagnosticsFound + 1 }

/-- Counts a directory change. -/
def countDirectoryChange (s : Statistics) : Statistics :=
  { s with directoryChanges := s.directoryChanges + 1 }

/-- Counts a marker that is written. -/
def countMarker (s : Statistics) : Statistics := { s with markersWritten := s.markersWritten + 1 }

/-- Counts what became of one reference. -/
def record (s : Statistics) : Outcome → Statistics
  | .unique _ => { s with filesResolved := s.filesResolved + 1 }
  | .noMatch => { s with filesMissing := s.filesMissing + 1 }
  | .ambiguous _ => { s with filesAmbiguous := s.filesAmbiguous + 1 }

/-- The counts as a text. -/
def display (s : Statistics) : String :=
  "Matching:\n  lines read: " ++ toString s.linesRead.toNat ++
  "\n  diagnostics: " ++ toString s.diagnosticsFound.toNat ++
  "\n  directory changes: " ++ toString s.directoryChanges.toNat ++
  "\n  resolved to a file: " ++ toString s.filesResolved.toNat ++
  "\n  no matching file: " ++ toString s.filesMissing.toNat ++
  "\n  ambiguous file: " ++ toString s.filesAmbiguous.toNat ++
  "\n  total markers written: " ++ toString s.markersWritten.toNat

end Statistics

/-! ## From lines to markers -/

/-- What the references of a log are resolved with. -/
structure Matching where
  resolver : Resolver
  tree : Tree
  disk : Disk
  /-- The project that was built. -/
  project : String
  deriving Repr

namespace Matching

/-- The marker for a diagnostic that was printed at this point of the trail, and
what became of its reference. -/
def marker (m : Matching) (trail : Trail) (diagnostic : Diagnostic) : Marker × Outcome :=
  Marker.generate m.resolver m.tree m.disk ⟨m.project, trail.current⟩ diagnostic

end Matching

/-- A build log on the way to becoming markers. -/
structure MarkerStream where
  /-- What is not read yet. -/
  log : BuildLog
  /-- Where the make is. -/
  trail : Trail
  statistics : Statistics
  deriving Repr

namespace MarkerStream

/-- The stream of a build that starts in the directory. -/
def start (log : BuildLog) (directory : Route) : MarkerStream := ⟨log, .start directory, .zero⟩

/-- What the bytes of a line say. -/
def lineOf (bytes : List UInt8) : Line := Line.parse (Text.decodeLossy bytes)

/-- Reads lines up to the first diagnostic, which becomes a marker. Behind the
last line comes the fault, if there is one. -/
def readLines (m : Matching) (fault : Option Fault) :
    List (List UInt8) → Trail → Statistics → Option (Except Fault Marker) × MarkerStream
  | [], trail, statistics => (fault.map .error, ⟨⟨[], none⟩, trail, statistics⟩)
  | bytes :: rest, trail, statistics =>
    let statistics := statistics.countLine
    match lineOf bytes with
    | .diagnostic diagnostic =>
      let (marker, outcome) := m.marker trail diagnostic
      (some (.ok marker), ⟨⟨rest, fault⟩, trail, statistics.countDiagnostic.record outcome⟩)
    | .directory change =>
      readLines m fault rest (trail.follow change) statistics.countDirectoryChange
    | .other => readLines m fault rest trail statistics

/-- The next marker, or the fault that ends the stream, and the stream behind
it. -/
def next (m : Matching) (s : MarkerStream) : Option (Except Fault Marker) × MarkerStream :=
  readLines m s.log.fault s.log.lines s.trail s.statistics

/-- The next item for a writer, a marker being counted as written. -/
def take (m : Matching) (s : MarkerStream) : Option (Except Fault Marker) × MarkerStream :=
  match s.next m with
  | (some (.ok marker), s) => (some (.ok marker), { s with statistics := s.statistics.countMarker })
  | (item, s) => (item, s)

/-- A bound on the number of items that are still to come. -/
def remaining (s : MarkerStream) : Nat := s.log.lines.length + s.log.fault.toList.length

theorem remaining_readLines_lt (m : Matching) (fault : Option Fault) (item : Except Fault Marker)
    (lines : List (List UInt8)) (trail : Trail) (statistics : Statistics)
    (h : (readLines m fault lines trail statistics).1 = some item) :
    (readLines m fault lines trail statistics).2.remaining <
      lines.length + fault.toList.length := by
  induction lines generalizing trail statistics with
  | nil => cases fault <;> simp_all [readLines, remaining]
  | cons bytes rest ih =>
    rw [readLines] at h ⊢
    split at h
    · simp [remaining]
    · have := ih _ _ h
      simp only [List.length_cons]
      omega
    · have := ih _ _ h
      simp only [List.length_cons]
      omega

/-- An item that comes brings the stream nearer to its end. -/
theorem remaining_lt_of_next {m : Matching} {s after : MarkerStream} {item : Except Fault Marker}
    (h : s.next m = (some item, after)) : after.remaining < s.remaining := by
  have := remaining_readLines_lt m s.log.fault item s.log.lines s.trail s.statistics
    (congrArg Prod.fst h)
  rwa [show readLines m s.log.fault s.log.lines s.trail s.statistics =
    (some item, after) from h] at this

/-- So does an item that is taken. -/
theorem remaining_lt_of_take {m : Matching} {s after : MarkerStream} {item : Except Fault Marker}
    (h : s.take m = (some item, after)) : after.remaining < s.remaining := by
  unfold take at h
  split at h
  · next marker behind heq =>
    have := remaining_lt_of_next heq
    simp only [Prod.mk.injEq] at h
    obtain ⟨-, rfl⟩ := h
    exact this
  · next heq =>
    rw [h] at heq
    exact remaining_lt_of_next heq

end MarkerStream

/-- What a stream has delivered when it is at its end, or when a marker comes that
there is no room for. -/
structure Delivery where
  markers : List Marker
  /-- The fault that ended the stream. -/
  fault : Option Fault
  statistics : Statistics
  deriving Repr

namespace MarkerStream

/-- Takes everything that comes up to the end or the first fault, and not more
markers than there is room for. -/
def drain (m : Matching) (room : Option Nat) (s : MarkerStream) : Delivery :=
  match h : s.take m with
  | (none, s) => ⟨[], none, s.statistics⟩
  | (some (.error fault), s) => ⟨[], some fault, s.statistics⟩
  | (some (.ok marker), after) =>
    have := remaining_lt_of_take h
    if room = some 0 then ⟨[], none, after.statistics⟩
    else
      let delivery := after.drain m (room.map (· - 1))
      { delivery with markers := marker :: delivery.markers }
  termination_by s.remaining

end MarkerStream

end BuildMarkers
