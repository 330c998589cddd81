import BuildMarkers.Workspace.Build
/-!
# Trees by number

A tree as it is kept while calls build it: the resources stand in slots, numbered
in the order in which they were added, and know each other by these numbers. A
slot has the number of the slot above it, that of its project, and a map from the
names of its children to their numbers; another map leads from names to
projects. Whoever follows a number that belongs to no slot stops there, which is
what `none` stands for below.

The walks to the top (`climb`, `seekLink`) and the walk over a project (`visit`) are
loops that nothing but the shape of the arena brings to an end. Each of them is given
one pass more than there are slots, and `none` stands for one that goes on as well.
-/

namespace BuildMarkers

/-- A map from names to numbers, its entries in the order of the names. -/
structure NameMap where
  entries : List (String × Nat)
  sorted : entries.Pairwise fun a b => a.1 < b.1
  deriving DecidableEq, Repr

namespace NameMap

/-- The map without entries. -/
def empty : NameMap := ⟨[], .nil⟩

/-- The number that the map has for the name. -/
def get? (m : NameMap) (name : String) : Option Nat := m.entries.lookup name

/-- The entries with one more, or with another number for a name that is there. -/
def insertEntry (name : String) (id : Nat) : List (String × Nat) → List (String × Nat)
  | [] => [(name, id)]
  | entry :: rest =>
    if name < entry.1 then (name, id) :: entry :: rest
    else if entry.1 = name then (name, id) :: rest
    else entry :: insertEntry name id rest

theorem mem_insertEntry {name : String} {id : Nat} {entries : List (String × Nat)}
    {e : String × Nat} (h : e ∈ insertEntry name id entries) : e = (name, id) ∨ e ∈ entries := by
  induction entries with
  | nil => exact .inl (List.mem_singleton.1 h)
  | cons entry rest ih =>
    rw [insertEntry] at h
    split at h
    · exact List.mem_cons.1 h
    · split at h
      · exact (List.mem_cons.1 h).imp_right (List.mem_cons_of_mem _)
      · rcases List.mem_cons.1 h with rfl | h
        · exact .inr List.mem_cons_self
        · exact (ih h).imp_right (List.mem_cons_of_mem _)

theorem sorted_insertEntry {name : String} {id : Nat} {entries : List (String × Nat)}
    (h : entries.Pairwise fun a b => a.1 < b.1) :
    (insertEntry name id entries).Pairwise fun a b => a.1 < b.1 := by
  induction entries with
  | nil => exact List.pairwise_singleton ..
  | cons entry rest ih =>
    obtain ⟨hentry, hrest⟩ := List.pairwise_cons.1 h
    rw [insertEntry]
    split
    · next hlt =>
      refine List.pairwise_cons.2 ⟨fun e he => ?_, h⟩
      rcases List.mem_cons.1 he with rfl | he
      · exact hlt
      · exact String.lt_trans hlt (hentry e he)
    · next hge =>
      split
      · next heq => exact List.pairwise_cons.2 ⟨heq ▸ hentry, hrest⟩
      · next hne =>
        -- the new entry comes somewhere behind this one
        refine List.pairwise_cons.2 ⟨fun e he => ?_, ih hrest⟩
        rcases mem_insertEntry he with rfl | he
        · refine Decidable.byContradiction fun hnot => hne ?_
          exact String.le_antisymm (String.not_lt.1 hge) (String.not_lt.1 hnot)
        · exact hentry e he

/-- The map that leads from the name to the number. -/
def insert (m : NameMap) (name : String) (id : Nat) : NameMap :=
  ⟨insertEntry name id m.entries, sorted_insertEntry m.sorted⟩

end NameMap

/-- What a pass of a loop makes of a state: the next state, or the result with which the
loop ends. A pass may fail. -/
abbrev Pass (σ β : Type) := σ → Option (σ ⊕ β)

/-- The result of the loop, if it ends after at most so many passes. -/
def Pass.loop {σ β : Type} (pass : Pass σ β) : Nat → σ → Option β
  | 0, _ => none
  | n + 1, s => do
    match ← pass s with
    | .inl s => pass.loop n s
    | .inr result => some result

/-- A resource as it stands in an arena. -/
structure Slot where
  name : String
  kind : Kind
  /-- The number of the resource above this one, none for a project. -/
  parent : Option Nat
  /-- The number of the project, which for a project is its own. -/
  project : Nat
  link : Link
  location : Option Route
  aliases : List Route
  children : NameMap
  deriving DecidableEq, Repr

/-- The resources of a workspace by their numbers. -/
structure Arena where
  slots : List Slot
  /-- The numbers of the projects by their names. -/
  projects : NameMap
  deriving DecidableEq, Repr

namespace Arena

/-- The arena of an empty workspace. -/
def empty : Arena := ⟨[], .empty⟩

/-! ## Calls -/

/-- The project that lies at the location, and its number. -/
def putProject (a : Arena) (name : String) (location : Path) : Except TreeError Nat × Arena :=
  match a.projects.get? name with
  | some _ => (.error (.duplicateProject name), a)
  | none =>
    let id := a.slots.length
    let slot : Slot :=
      { name, kind := .project, parent := none, project := id, link := .none
        location := some location.location, aliases := [], children := .empty }
    (.ok id, ⟨a.slots ++ [slot], a.projects.insert name id⟩)

/-- The arena with one more resource, which its parent has among the children, and
the number of the resource. -/
def push (a : Arena) (parent : Nat) (name : String) (kind : Kind) (link : Link) :
    Option (Nat × Arena) := do
  let above ← a.slots[parent]?
  let id := a.slots.length
  let seen := (above.location.toList ++ above.aliases).map (· ++ [.ofSegment name])
  let location := link.locationBelow above.location name
  let slot : Slot :=
    { name, kind, parent := some parent, project := above.project, link, location
      aliases := link.aliasesAmong seen location, children := .empty }
  let slots := (a.slots ++ [slot]).modify parent fun s =>
    { s with children := s.children.insert name id }
  some (id, { a with slots })

/-- The folders below `parent`, each made where there is none, and the number of the
last of them. `above` are the names on the way from the project to the parent. -/
def putFolders (a : Arena) (project : String) (above : List String) (parent : Nat) :
    List String → Option (Except TreeError Nat × Arena)
  | [] => some (.ok parent, a)
  | name :: rest => do
    let slot ← a.slots[parent]?
    match slot.children.get? name with
    | some id =>
      let child ← a.slots[id]?
      if child.kind = .file then
        some (.error (.notFolder (Address.fullPath ⟨project, above ++ [name]⟩)), a)
      else a.putFolders project (above ++ [name]) id rest
    | none =>
      let (id, a) ← a.push parent name .folder .none
      a.putFolders project (above ++ [name]) id rest

/-- The child of a container, and its number. The address is for the error. -/
def putChild (a : Arena) (address : Address) (parent : Nat) (name : String) (kind : Kind)
    (link : Link) : Option (Except TreeError Nat × Arena) := do
  let slot ← a.slots[parent]?
  match slot.children.get? name with
  | some id =>
    let child ← a.slots[id]?
    if child.kind = kind && child.link.same link then some (.ok id, a)
    else some (.error (.conflict address.fullPath), a)
  | none =>
    let (id, a) ← a.push parent name kind link
    some (.ok id, a)

/-- The resource below the project, and its number. -/
def put (a : Arena) (project : String) (segments : List String) (kind : Kind) (link : Link) :
    Option (Except TreeError Nat × Arena) :=
  match a.projects.get? project with
  | none => some (.error (.unknownProject project), a)
  | some root =>
    match segments.getLast? with
    | none => some (.error (.emptyPath project), a)
    | some name => do
      let (result, a) ← a.putFolders project [] root segments.dropLast
      match result with
      | .error e => some (.error e, a)
      | .ok parent => a.putChild ⟨project, segments⟩ parent name kind link

/-- What the call returns, which is a number where it succeeds, and the arena that
it leaves. -/
def perform (a : Arena) : Call → Option (Except TreeError Nat × Arena)
  | .project name location => some (a.putProject name location)
  | .resource project segments kind link => a.put project segments kind link

/-- The arena that all the calls leave, failing ones included. -/
def performAll (a : Arena) (calls : List Call) : Option Arena :=
  calls.foldlM (fun a call => (a.perform call).map (·.2)) a

/-! ## Queries -/

/-- The number of the child with the name. -/
def child? (a : Arena) (parent : Nat) (name : String) : Option Nat :=
  (a.slots[parent]?).bind (·.children.get? name)

/-- The number that the names lead to, child by child. -/
def descend? (a : Arena) (id : Nat) (names : List String) : Option Nat := names.foldlM a.child? id

/-- As many passes as a loop over the arena is given. -/
def passes (a : Arena) : Nat := a.slots.length + 1

/-- From a resource to the one above it, with its name in front of the names below. -/
def climb (a : Arena) : Pass (Nat × List String) (List String) := fun (id, below) => do
  let slot ← a.slots[id]?
  match slot.parent with
  | some parent => some (.inl (parent, slot.name :: below))
  | none => some (.inr below)

/-- The names on the way from the project to the resource. -/
def segments (a : Arena) (id : Nat) : Option (List String) := a.climb.loop a.passes (id, [])

/-- The full path of the resource. -/
def fullPath (a : Arena) (id : Nat) : Option String := do
  let slot ← a.slots[id]?
  let root ← a.slots[slot.project]?
  let segments ← a.segments id
  some (Address.fullPath ⟨root.name, segments⟩)

/-- From a resource to the one above it, up to one that is a link. -/
def seekLink (a : Arena) : Pass Nat Bool := fun id => do
  let slot ← a.slots[id]?
  if slot.link ≠ .none then some (.inr true)
  else
    match slot.parent with
    | some parent => some (.inl parent)
    | none => some (.inr false)

/-- A link leads to the resource or to one above it. -/
def isLinked (a : Arena) (id : Nat) : Option Bool := a.seekLink.loop a.passes id

/-- From a resource on the stack to its children, which come next. A file is put behind
those that are found. -/
def visit (a : Arena) : Pass (List Nat × List Nat) (List Nat)
  | ([], found) => some (.inr found)
  | (id :: rest, found) => do
    let slot ← a.slots[id]?
    some (.inl (slot.children.entries.map (·.2) ++ rest,
      if slot.kind = .file then found ++ [id] else found))

/-- The files of the project in the order of a walk from the top. -/
def files (a : Arena) (project : Nat) : Option (List Nat) := a.visit.loop a.passes ([project], [])

end Arena

end BuildMarkers
