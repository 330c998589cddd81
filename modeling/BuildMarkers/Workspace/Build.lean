import BuildMarkers.Workspace.Tree
/-!
# Building a tree

A tree grows by calls: one adds a project, the other a folder or a file below
it. Folders on the way that do not exist yet are made. A call for a resource
that is there already with the same kind and link changes nothing, and a call
that fails gives no tree (`apply`), so the tree is what it was. Who has one tree
and works on it in place keeps also what a call has made before it fails
(`perform`).
-/

namespace BuildMarkers

/-- Why a resource cannot be added. -/
inductive TreeError where
  | duplicateProject (name : String)
  | unknownProject (name : String)
  /-- The path below the project has no segment. -/
  | emptyPath (project : String)
  /-- A file stands where a folder is needed. -/
  | notFolder (path : String)
  /-- A resource of another kind or with another link is there. -/
  | conflict (path : String)
  deriving DecidableEq, Repr

namespace TreeError

/-- The text of the error. -/
def message : TreeError → String
  | .duplicateProject name => "Project already exists: " ++ name
  | .unknownProject name => "Project not found: " ++ name
  | .emptyPath project => "Empty resource path in project " ++ project
  | .notFolder path => "Resource " ++ path ++ " is a file, it can't have children"
  | .conflict path => "Resource " ++ path ++ " already exists with a different kind"

end TreeError

/-- A call that adds to a tree. -/
inductive Call where
  /-- A project that lies at the location. -/
  | project (name : String) (location : Path)
  /-- A folder or a file of the project. -/
  | resource (project : String) (segments : List String) (kind : Kind) (link : Link)
  deriving DecidableEq, Repr

namespace Tree

/-- The segments of a path below a project: what is between slashes, without
empty segments and `.`. -/
def segmentsOf (path : String) : List String :=
  (Text.segments (· = '/') path).filter (· ≠ ".")

/-- The tree with one more project. -/
def addProject (t : Tree) (name : String) (location : Path) : Except TreeError Tree :=
  if t.hasProject name then .error (.duplicateProject name)
  else .ok ⟨t.resources ++ [⟨.ofProject name, .project, .none, some location.location, []⟩]⟩

/-- The tree with the child of the parent. -/
def push (t : Tree) (parent : Resource) (name : String) (kind : Kind) (link : Link) : Tree :=
  ⟨t.resources ++ [parent.below name kind link]⟩

/-- The tree with all folders below `parent` made, and the last of them. -/
def makeFolders (t : Tree) (parent : Resource) : List String → Except TreeError (Tree × Resource)
  | [] => .ok (t, parent)
  | name :: rest =>
    match t.get? (parent.address.child name) with
    | none => makeFolders (t.push parent name .folder .none) (parent.below name .folder .none) rest
    | some r =>
      if r.isFile then .error (.notFolder r.address.fullPath) else t.makeFolders r rest

/-- The tree with the child of a container, which may be there already. -/
def addChild (t : Tree) (parent : Resource) (name : String) (kind : Kind) (link : Link) :
    Except TreeError Tree :=
  match t.get? (parent.address.child name) with
  | none => .ok (t.push parent name kind link)
  | some r =>
    if r.kind = kind && r.link.same link then .ok t
    else .error (.conflict r.address.fullPath)

/-- The tree with the resource below the project. -/
def insert (t : Tree) (project : String) (segments : List String) (kind : Kind) (link : Link) :
    Except TreeError Tree :=
  match t.get? (.ofProject project) with
  | none => .error (.unknownProject project)
  | some root =>
    match segments.getLast? with
    | none => .error (.emptyPath project)
    | some name => do
      let (t, parent) ← t.makeFolders root segments.dropLast
      t.addChild parent name kind link

/-- The tree after the call. -/
def apply (t : Tree) : Call → Except TreeError Tree
  | .project name location => t.addProject name location
  | .resource project segments kind link => t.insert project segments kind link

/-- The tree after all the calls, the failing ones without effect. -/
def applyAll (t : Tree) (calls : List Call) : Tree :=
  calls.foldl (fun t call => (t.apply call).toOption.getD t) t

/-! ## In place -/

/-- The position of the resource at the address. -/
def position (t : Tree) (a : Address) : Nat := t.resources.findIdx (·.address = a)

/-- The folders below `parent`, each made where there is none, and the last of
them. -/
def putFolders (t : Tree) (parent : Resource) : List String → Except TreeError Resource × Tree
  | [] => (.ok parent, t)
  | name :: rest =>
    match t.get? (parent.address.child name) with
    | none => putFolders (t.push parent name .folder .none) (parent.below name .folder .none) rest
    | some r =>
      if r.isFile then (.error (.notFolder r.address.fullPath), t) else t.putFolders r rest

/-- The child of a container, and its position. -/
def putChild (t : Tree) (parent : Resource) (name : String) (kind : Kind) (link : Link) :
    Except TreeError Nat × Tree :=
  match t.get? (parent.address.child name) with
  | none => (.ok t.resources.length, t.push parent name kind link)
  | some r =>
    if r.kind = kind && r.link.same link then (.ok (t.position r.address), t)
    else (.error (.conflict r.address.fullPath), t)

/-- The resource below the project, and its position. The folders that are made
before a failure stay. -/
def put (t : Tree) (project : String) (segments : List String) (kind : Kind) (link : Link) :
    Except TreeError Nat × Tree :=
  match t.get? (.ofProject project) with
  | none => (.error (.unknownProject project), t)
  | some root =>
    match segments.getLast? with
    | none => (.error (.emptyPath project), t)
    | some name =>
      match t.putFolders root segments.dropLast with
      | (.error e, t) => (.error e, t)
      | (.ok parent, t) => t.putChild parent name kind link

/-- The project that lies at the location, and its position. -/
def putProject (t : Tree) (name : String) (location : Path) : Except TreeError Nat × Tree :=
  if t.hasProject name then (.error (.duplicateProject name), t)
  else (.ok t.resources.length, ⟨t.resources ++ [.root name location.location]⟩)

/-- What the call returns, which is a position where it succeeds, and the tree that
it leaves. -/
def perform (t : Tree) : Call → Except TreeError Nat × Tree
  | .project name location => t.putProject name location
  | .resource project segments kind link => t.put project segments kind link

/-- The tree that all the calls leave. -/
def performAll (t : Tree) (calls : List Call) : Tree :=
  calls.foldl (fun t call => (t.perform call).2) t

end Tree

namespace Call

/-- The address that the call is about. -/
def address : Call → Address
  | .project name _ => .ofProject name
  | .resource owner segments _ _ => ⟨owner, segments⟩

end Call

end BuildMarkers
