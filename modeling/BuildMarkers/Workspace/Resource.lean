import BuildMarkers.Path.Route
/-!
# Resources

A workspace consists of projects, and a project of folders and files. Each of
them is a resource, known by its address: the project's name and the names that
lead down from it. Where a resource lies on the disk is its location; a
resource under a symbolic link has aliases too, the spellings that lead to it
through the link.
-/

namespace BuildMarkers

/-- What a resource is. -/
inductive Kind where
  | project
  | folder
  | file
  deriving DecidableEq, Repr

/-- How the location of a resource comes about. -/
inductive Link where
  /-- The resource lies in its parent. -/
  | none
  /-- The workspace places the resource at the target. -/
  | linked (target : Path)
  /-- The resource is a symbolic link; `present` says that its target exists. -/
  | symbolic (target : Path) (present : Bool)
  deriving DecidableEq, Repr

namespace Component

/-- The step that a segment of a logical path stands for. -/
def ofSegment (segment : String) : Component :=
  if segment = ".." then .parent else .name (.ofString segment)

end Component

namespace Link

/-- The links have one form and one target, whatever its spelling. -/
def same : Link → Link → Bool
  | .none, .none => true
  | .linked p, .linked q => decide (p.Same q)
  | .symbolic p a, .symbolic q b => decide (p.Same q) && a == b
  | _, _ => false

/-- Where a resource with the link lies, under a name of a parent that lies at
`above`. The target of a symbolic link is meant from the parent, and so is unknown
where that has no location, unless it is absolute. -/
def locationBelow (above : Option Route) (name : String) : Link → Option Route
  | .none => above.map (· ++ [.ofSegment name])
  | .linked target => some target.location
  | .symbolic target true =>
    match above with
    | some location => some (location.join target.route).normalize
    | .none => if target.isAbsolute then some target.location else .none
  | .symbolic _ false => .none

/-- The spellings through symbolic links of a resource with the link and the
location, among those that are seen from its parent. -/
def aliasesAmong (link : Link) (seen : List Route) (location : Option Route) : List Route :=
  match link, location with
  | .linked _, _ => []
  | _, .none => []
  | _, some location => seen.filter (· ≠ location)

end Link

/-- What identifies a resource: its project and the names down to it. -/
structure Address where
  project : String
  /-- The names from the project down, none for the project itself. -/
  segments : List String
  deriving DecidableEq, Repr

namespace Address

/-- The address of a project. -/
def ofProject (name : String) : Address := ⟨name, []⟩

/-- The address one name further down. -/
def child (a : Address) (name : String) : Address := ⟨a.project, a.segments ++ [name]⟩

/-- The address one name further up, for all but a project. -/
def parent? (a : Address) : Option Address :=
  if a.segments.isEmpty then none else some ⟨a.project, a.segments.dropLast⟩

/-- The last name. -/
def name (a : Address) : String := a.segments.getLastD a.project

/-- The addresses from the project down to this one. -/
def chain (a : Address) : List Address :=
  (List.range (a.segments.length + 1)).map fun n => ⟨a.project, a.segments.take n⟩

/-- The address as one text, as in `/Project/folder/file.c`. -/
def fullPath (a : Address) : String :=
  (a.project :: a.segments).foldl (fun text name => text ++ "/" ++ name) ""

end Address

/-- A project, a folder or a file of the workspace. -/
structure Resource where
  address : Address
  kind : Kind
  link : Link
  /-- Where the resource lies, if that is known. -/
  location : Option Route
  /-- Other spellings that lead to the location through symbolic links. -/
  aliases : List Route
  deriving DecidableEq, Repr

namespace Resource

/-- The resource is a file. -/
def isFile (r : Resource) : Bool := r.kind = .file

/-- The resource is a project or a folder. -/
def isContainer (r : Resource) : Bool := r.kind ≠ .file

/-- Every spelling under which the resource is found, the location first. -/
def spellings (r : Resource) : List Route := r.location.toList ++ r.aliases

/-- A project that lies at the location. -/
def root (name : String) (location : Route) : Resource :=
  ⟨.ofProject name, .project, .none, some location, []⟩

end Resource

namespace Resource

/-- The spellings of a child that are seen from the parent. -/
def spellingsBelow (parent : Resource) (name : String) : List Route :=
  parent.spellings.map (· ++ [.ofSegment name])

/-- Where a child with the link lies. -/
def locationOf (parent : Resource) (name : String) (link : Link) : Option Route :=
  link.locationBelow parent.location name

/-- The spellings through symbolic links of a child with the link and the
location. -/
def aliasesOf (parent : Resource) (name : String) (link : Link) (location : Option Route) :
    List Route :=
  link.aliasesAmong (parent.spellingsBelow name) location

/-- The child of the parent with this name, kind and link. -/
def below (parent : Resource) (name : String) (kind : Kind) (link : Link) : Resource :=
  let location := parent.locationOf name link
  { address := parent.address.child name
    kind, link, location
    aliases := parent.aliasesOf name link location }

end Resource

end BuildMarkers
