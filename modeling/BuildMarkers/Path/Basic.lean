import BuildMarkers.Text.Quoted
/-!
# Paths, as they are written

A path is a sequence of bytes in which the slash separates names. The bytes
need not form a text, so a path shows (`display`) with U+FFFD where they do
not. Joining and taking the parent work on the bytes and keep what was
written: `join` with nothing leaves a final slash, `parent` keeps a doubled one.
What a path means, the names without such accidents, is its route.
-/

namespace BuildMarkers

/-- The byte that separates the names of a path. -/
def slash : UInt8 := 0x2F

/-- The byte of which the two special names consist. -/
def dot : UInt8 := 0x2E

/-- The name of an entry of a directory: bytes, among them no slash. -/
structure FileName where
  /-- The bytes of the name. -/
  bytes : List UInt8
  deriving DecidableEq, Repr, Inhabited

namespace FileName

/-- The name with this text. -/
def ofString (s : String) : FileName := ⟨Text.encode s⟩

/-- The text of the name, if its bytes form one. -/
def text? (n : FileName) : Option String := Text.decode? n.bytes

end FileName

/-- A path as it is written. -/
structure Path where
  /-- The bytes of the path. -/
  bytes : List UInt8
  deriving DecidableEq, Repr, Inhabited

namespace Path

/-- The path with this text. -/
def ofString (s : String) : Path := ⟨Text.encode s⟩

/-- The path as a text to show. -/
def display (p : Path) : String := Text.decodeLossy p.bytes

/-- The path in quotes, as some messages show it. -/
def quoted (p : Path) : String := Text.quotedBytes p.bytes

/-- Nothing is written. -/
def isEmpty (p : Path) : Bool := p.bytes.isEmpty

/-- The path starts at the root. -/
def isAbsolute (p : Path) : Bool := p.bytes.head? == some slash

/-- What is written between the slashes, the empty pieces included. -/
def pieces (p : Path) : List (List UInt8) := p.bytes.splitOn slash

/-- The second path as seen from the first. An absolute one stands for itself;
a slash goes between the two unless one is there or the first is empty. -/
def join (p q : Path) : Path :=
  if q.isAbsolute then q
  else if p.bytes.isEmpty || p.bytes.getLast? == some slash then ⟨p.bytes ++ q.bytes⟩
  else ⟨p.bytes ++ slash :: q.bytes⟩

/-- A piece that does not change where a path leads. -/
def isIdle (piece : List UInt8) : Bool := piece = [] || piece = [dot]

/-- The start of a path that is no name, `/` or a leading `.`, and the rest. -/
def splitLead (p : Path) : List UInt8 × List UInt8 :=
  match p.bytes with
  | [] => ([], [])
  | b :: r =>
    if b = slash then ([slash], r)
    else if b = dot && (r.isEmpty || r.head? == some slash) then ([dot], r)
    else ([], b :: r)

/-- The path without its last component, `none` where there is none to take
away. Idle pieces on either side of the component go with it. -/
def parent? (p : Path) : Option Path :=
  let (lead, body) := p.splitLead
  match Text.dropTrailing isIdle (body.splitOn slash) with
  | [] => if lead = [dot] then some ⟨[]⟩ else none
  | kept =>
    some ⟨lead ++ [slash].intercalate (Text.dropTrailing isIdle kept.dropLast)⟩

end Path

end BuildMarkers
