import BuildMarkers.Path.Basic
/-!
# Routes

A route is what a path means by its names alone: its components in order,
without doubled slashes and inner `.` pieces. Two paths that are spelled
differently and have one route count as the same path. `normalize` makes a
route canonical without looking at the disk: every `..` takes back the name
before it, one at the root stays at the root, and a leading run of them is kept
where the route is relative.
-/

namespace BuildMarkers

/-- A component of a path. -/
inductive Component where
  /-- The start of an absolute path. -/
  | root
  /-- A `.` that starts a relative path. -/
  | current
  /-- The step `..` to the directory above. -/
  | parent
  /-- The step to an entry of a directory. -/
  | name (n : FileName)
  deriving DecidableEq, Repr

namespace Component

/-- The component as a path of its own. -/
def path : Component → Path
  | .root => ⟨[slash]⟩
  | .current => ⟨[dot]⟩
  | .parent => ⟨[dot, dot]⟩
  | .name n => ⟨n.bytes⟩

/-- The component that a piece between slashes stands for, if any. -/
def ofPiece? (piece : List UInt8) : Option Component :=
  if Path.isIdle piece then none
  else if piece = [dot, dot] then some .parent
  else some (.name ⟨piece⟩)

end Component

/-- The components of a path in order. -/
abbrev Route := List Component

namespace Route

/-- The route starts at the root. -/
def isAbsolute (r : Route) : Bool := r.head? == some .root

/-- The route without a leading `.`. -/
def dropCurrent : Route → Route
  | .current :: r => r
  | r => r

/-- The second route as seen from the first. -/
def join (r s : Route) : Route :=
  if s.isAbsolute then s else if r.isEmpty then s else r ++ s.dropCurrent

/-- The way back from where a component leads to, the innermost component
first. -/
def push : Route → Component → Route
  | back, .current => back
  | .name _ :: back, .parent => back
  | .root :: back, .parent => .root :: back
  | back, c => c :: back

/-- The route without `.` and with every `..` carried out that has a name
before it. -/
def normalize (r : Route) : Route := (r.foldl push []).reverse

/-- The route with one more name at its end. -/
def child (r : Route) (n : FileName) : Route := r ++ [.name n]

/-- The route in its plain spelling. -/
def toPath (r : Route) : Path := (r.map Component.path).foldl Path.join ⟨[]⟩

/-- The plain spelling as a text to show. -/
def display (r : Route) : String := r.toPath.display

/-- The route from the root along the names. -/
def ofNames (names : List FileName) : Route := .root :: names.map .name

end Route

namespace Path

/-- The components of the path. -/
def route (p : Path) : Route :=
  let steps := p.pieces.filterMap Component.ofPiece?
  if p.isAbsolute then .root :: steps
  else if p.splitLead.1 = [dot] then .current :: steps
  else steps

/-- Where the path leads by its names alone. -/
def location (p : Path) : Route := p.route.normalize

/-- The paths have the same components. -/
def Same (p q : Path) : Prop := p.route = q.route

instance (p q : Path) : Decidable (p.Same q) := inferInstanceAs (Decidable (p.route = q.route))

end Path

end BuildMarkers
