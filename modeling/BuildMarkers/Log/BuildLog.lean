import BuildMarkers.Disk.Basic
import BuildMarkers.Log.DirectoryChange
/-!
# Build logs

A build log is the output of a build cut into lines, each with the line feed
that ends it. The last line may lack it. Where reading the log fails, the bytes
behind the last line feed are lost, and the fault comes after the lines that
are complete.
-/

namespace BuildMarkers

/-- The byte that ends a line. -/
def lineFeed : UInt8 := 0x0A

/-- The lines of a build as they are read. -/
structure BuildLog where
  /-- The lines that are not read yet. -/
  lines : List (List UInt8)
  /-- The fault that comes after the lines in place of the end. -/
  fault : Option Fault
  deriving DecidableEq, Repr

namespace BuildLog

/-- The lines of the bytes that a line feed ends. -/
def completeLines (bytes : List UInt8) : List (List UInt8) :=
  (bytes.splitOn lineFeed).dropLast.map (· ++ [lineFeed])

/-- The bytes behind the last line feed. -/
def lastPiece (bytes : List UInt8) : List UInt8 := (bytes.splitOn lineFeed).getLastD []

/-- The lines of the bytes, the last one with or without its line feed. -/
def linesOf (bytes : List UInt8) : List (List UInt8) :=
  completeLines bytes ++ (if lastPiece bytes = [] then [] else [lastPiece bytes])

/-- The log that a file holds. -/
def ofFile (data : FileData) : BuildLog :=
  match data.readFault with
  | none => ⟨linesOf data.content, none⟩
  | some fault => ⟨completeLines data.content, some fault⟩

end BuildLog

/-! ## Lines of a build log

A line is read as a directory line first and as a diagnostic otherwise; every
other line says nothing. The carriage returns and line feeds at its end do not
belong to it. -/

/-- What a line of a build log says. -/
inductive Line where
  | diagnostic (d : Diagnostic)
  | directory (change : DirectoryChange)
  | other
  deriving DecidableEq, Repr

namespace Line

/-- The character ends a line. -/
def isLineEnd (c : Char) : Bool := c = '\r' || c = '\n'

/-- What the characters of a line say. -/
def ofChars (s : List Char) : Line :=
  let s := Text.dropTrailing isLineEnd s
  match DirectoryChange.ofLine? s with
  | some change => .directory change
  | none =>
    match Diagnostic.ofLine? s with
    | some d => .diagnostic d
    | none => .other

/-- What a line says. -/
def parse (s : String) : Line := ofChars s.toList

end Line

end BuildMarkers
