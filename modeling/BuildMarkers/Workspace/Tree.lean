import BuildMarkers.Workspace.Resource
/-!
# The tree of a workspace

The resources of a workspace in the order in which they were added. Addresses
are unique, so the tree is a forest of projects in which the parent of a
resource is found by its address. The listings are sorted: projects and
children by name, the files of a project by their segments, which is the order
of a walk from the top (`Walk`).

A location may belong to several resources. Of these the preferred project
comes first, then resources that no link leads to, then short addresses, then
the full path (`Rank`).
-/

namespace BuildMarkers

/-- The resources of a workspace. -/
structure Tree where
  /-- The resources, the earlier ones first. -/
  resources : List Resource
  deriving DecidableEq, Repr, Inhabited

/-- The place of a resource in the order of preference. -/
structure Rank where
  /-- The resource is not in the preferred project. -/
  foreign : Bool
  /-- A link leads to the resource. -/
  linked : Bool
  /-- The number of segments. -/
  depth : Nat
  fullPath : String
  deriving DecidableEq, Repr

namespace Rank

/-- The first rank comes before the second. -/
def Before (a b : Rank) : Prop :=
  a.foreign < b.foreign ∨ a.foreign = b.foreign ∧
    (a.linked < b.linked ∨ a.linked = b.linked ∧
      (a.depth < b.depth ∨ a.depth = b.depth ∧ a.fullPath < b.fullPath))

instance (a b : Rank) : Decidable (a.Before b) := by unfold Before; infer_instance

end Rank

namespace Tree

/-- The tree of an empty workspace. -/
def empty : Tree := ⟨[]⟩

/-- The resource at the address. -/
def get? (t : Tree) (a : Address) : Option Resource := t.resources.find? (·.address = a)

/-- There is a project with the name. -/
def hasProject (t : Tree) (name : String) : Bool := (t.get? (.ofProject name)).isSome

/-- The names of the projects in order. -/
def projects (t : Tree) : List String :=
  ((t.resources.filter (·.address.segments.isEmpty)).map (·.address.project)).mergeSort
    fun a b => decide (a ≤ b)

/-- The name of the resource, if it is a child of the address. -/
def childName? (a : Address) (r : Resource) : Option String :=
  if r.address.parent? = some a then r.address.segments.getLast? else none

/-- The names of the children in order. -/
def children (t : Tree) (a : Address) : List String :=
  (t.resources.filterMap (childName? a)).mergeSort fun a b => decide (a ≤ b)

/-- A link leads to the resource at the address or to one above it. -/
def isLinked (t : Tree) (a : Address) : Bool :=
  a.chain.any fun b => (t.get? b).any fun r => r.link ≠ .none

/-- Whether a walk from the top comes to the first resource no later than to the
second, names being visited in order. -/
def walkLE (a b : List String) : Bool := !List.lex b a fun x y => decide (x < y)

/-- The addresses of all files of the project, in the order of a walk from the
top. -/
def files (t : Tree) (project : String) : List Address :=
  ((t.resources.filter fun r => r.isFile && r.address.project = project).map (·.address)).mergeSort
    fun a b => walkLE a.segments b.segments

/-- The resources that the spelling leads to, in the order of the tree. -/
def foundAt (t : Tree) (spelling : Route) : List Resource :=
  t.resources.filter (·.spellings.contains spelling)

/-- The rank of a resource where one project is preferred. -/
def rank (t : Tree) (preferred : String) (r : Resource) : Rank where
  foreign := r.address.project ≠ preferred
  linked := t.isLinked r.address
  depth := r.address.segments.length
  fullPath := r.address.fullPath

/-- The resource that the spelling leads to and that comes first among those
which satisfy `p`. -/
def select (t : Tree) (p : Resource → Bool) (preferred : String) (spelling : Route) :
    Option Resource :=
  ((t.foundAt spelling).filter p).foldl (fun best r =>
    match best with
    | none => some r
    | some b => if (t.rank preferred r).Before (t.rank preferred b) then some r else some b) none

/-- The file to which the spelling leads. -/
def fileAt (t : Tree) (preferred : String) (spelling : Route) : Option Address :=
  (t.select Resource.isFile preferred spelling).map (·.address)

/-- The project or folder to which the spelling leads. -/
def containerAt (t : Tree) (preferred : String) (spelling : Route) : Option Address :=
  (t.select Resource.isContainer preferred spelling).map (·.address)

/-- The address is one of a file. -/
def isFile (t : Tree) (a : Address) : Bool := (t.get? a).any (·.isFile)

end Tree

/-- A walk over the resources of a tree. -/
structure Walk where
  /-- What is still to visit, the next address first. -/
  stack : List Address
  /-- The files among the visited addresses. -/
  found : List Address
  deriving DecidableEq, Repr

namespace Walk

/-- One visit, after which the children of the visited address come next. A walk
with nothing to visit stays as it is. -/
def step (t : Tree) : Walk → Walk
  | ⟨[], found⟩ => ⟨[], found⟩
  | ⟨a :: rest, found⟩ =>
    ⟨(t.children a).map a.child ++ rest, if t.isFile a then found ++ [a] else found⟩

/-- The walk that begins at a project. -/
def start (project : String) : Walk := ⟨[.ofProject project], []⟩

end Walk

end BuildMarkers
