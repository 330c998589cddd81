import BuildMarkers.Proofs.Disk.Standing
import BuildMarkers.Workspace.Build
/-!
# How a tree grows

A call adds resources behind those that are there and takes none away
(`Grows`), so what an address leads to is never replaced. Every tree that calls
make is grown (`IsGrown`): an address leads to one resource, and a resource
below a project is the child of the container that its address names. So
whatever holds of a container and passes to its children holds of the whole
tree, however a call came upon the container.
-/

namespace BuildMarkers

namespace Address

variable {a b : Address} {m n : String}

theorem child_injective (h : a.child m = b.child n) : a = b ∧ m = n := by
  rw [child, child, mk.injEq] at h
  obtain ⟨hproject, hsegments⟩ := h
  obtain ⟨hsegments, hname⟩ := List.append_inj' hsegments rfl
  refine ⟨?_, List.singleton_inj.1 hname⟩
  cases a
  cases b
  simp_all

theorem segments_child_ne_nil : (a.child n).segments ≠ [] := by
  simp [child]

end Address

namespace Link

@[simp] theorem same_refl (l : Link) : l.same l = true := by
  cases l <;> simp [same, Path.Same]

/-- Links that are the same have one form, and their targets one route. -/
theorem same_cases {l m : Link} (h : l.same m = true) :
    l = m ∨ (∃ p q : Path, p.route = q.route ∧ l = .linked p ∧ m = .linked q) ∨
      ∃ (p q : Path) (present : Bool), p.route = q.route ∧ l = .symbolic p present ∧
        m = .symbolic q present := by
  cases l with
  | none =>
    cases m with
    | none => exact .inl rfl
    | linked q => cases h
    | symbolic q b => cases h
  | linked p =>
    cases m with
    | linked q => exact .inr (.inl ⟨p, q, of_decide_eq_true h, rfl, rfl⟩)
    | none => cases h
    | symbolic q b => cases h
  | symbolic p a =>
    cases m with
    | symbolic q b =>
      obtain ⟨hroute, hpresent⟩ := Bool.and_eq_true_iff.1 h
      obtain rfl := eq_of_beq hpresent
      exact .inr (.inr ⟨p, q, a, of_decide_eq_true hroute, rfl, rfl⟩)
    | none => cases h
    | linked q => cases h

/-- They put a child at the same place, below containers that lie at the same
place. -/
theorem locationOf_congr {l m : Link} (h : l.same m = true) {parent parent' : Resource}
    (name : String) (hparent : parent.location = parent'.location) :
    parent.locationOf name l = parent'.locationOf name m := by
  rcases same_cases h with rfl | ⟨p, q, hroute, rfl, rfl⟩ | ⟨p, q, present, hroute, rfl, rfl⟩
  · simp only [Resource.locationOf, Link.locationBelow, hparent]
  · simp only [Resource.locationOf, Link.locationBelow, Path.location, hroute]
  · cases present with
    | true =>
      simp only [Resource.locationOf, Link.locationBelow, Path.location, hparent, hroute,
        Path.isAbsolute_eq_of_route hroute]
    | false => rfl

end Link

namespace Resource

variable {r : Resource}

@[simp] theorem isFile_iff : r.isFile = true ↔ r.kind = .file := by
  simp [isFile]

@[simp] theorem isContainer_iff : r.isContainer = true ↔ r.kind ≠ .file := by
  simp [isContainer]

@[simp] theorem aliasesOf_none (parent : Resource) (name : String) (link : Link) :
    parent.aliasesOf name link none = [] := by
  cases link <;> rfl

end Resource

namespace Tree

variable {t t' u : Tree} {a : Address} {r parent : Resource} {name project : String}
  {names segments : List String} {kind : Kind} {link : Link}

theorem address_of_get? (h : t.get? a = some r) : r.address = a := by
  simpa using List.find?_some h

theorem mem_of_get? (h : t.get? a = some r) : r ∈ t.resources := List.mem_of_find?_eq_some h

/-- The second tree has the resources of the first, and maybe more behind
them. -/
def Grows (t t' : Tree) : Prop := t.resources <+: t'.resources

namespace Grows

theorem refl (t : Tree) : t.Grows t := List.prefix_rfl

theorem trans (h : t.Grows u) (h' : u.Grows t') : t.Grows t' := List.IsPrefix.trans h h'

theorem mem (h : t.Grows t') (hr : r ∈ t.resources) : r ∈ t'.resources := List.IsPrefix.mem hr h

/-- **What an address leads to stays.** -/
theorem get? (h : t.Grows t') (hr : t.get? a = some r) : t'.get? a = some r := by
  obtain ⟨more, hmore⟩ := h
  unfold Tree.get? at hr ⊢
  rw [← hmore, List.find?_append, hr, Option.some_or]

theorem isSome (h : t.Grows t') (ha : (t.get? a).isSome) : (t'.get? a).isSome := by
  obtain ⟨r, hr⟩ := Option.isSome_iff_exists.1 ha
  exact Option.isSome_of_eq_some (h.get? hr)

end Grows

/-- The resource is a project or the child of a container that the tree has. -/
def Placed (t : Tree) (r : Resource) : Prop :=
  (r.address.segments = [] ∧ r.kind = .project) ∨
    ∃ (parent : Resource) (name : String), t.get? parent.address = some parent ∧
      parent.isContainer = true ∧ r = parent.below name r.kind r.link

theorem Placed.grow (hr : t.Placed r) (h : t.Grows t') : t'.Placed r := by
  rcases hr with hr | ⟨parent, name, hparent, hr⟩
  · exact .inl hr
  · exact .inr ⟨parent, name, h.get? hparent, hr⟩

/-- The tree is one that calls make. -/
structure IsGrown (t : Tree) : Prop where
  unique : ∀ r ∈ t.resources, t.get? r.address = some r
  placed : ∀ r ∈ t.resources, t.Placed r

theorem isGrown_empty : empty.IsGrown := ⟨by simp [empty], by simp [empty]⟩

/-! ## One more resource -/

theorem get?_append_singleton (t : Tree) (r : Resource) (a : Address) :
    get? ⟨t.resources ++ [r]⟩ a = (t.get? a).or (if r.address = a then some r else none) := by
  rw [get?, List.find?_append, List.find?_singleton]
  simp [get?]

/-- What is added at a free address is found there. -/
theorem get?_append_self (hfree : t.get? r.address = none) :
    get? ⟨t.resources ++ [r]⟩ r.address = some r := by
  rw [get?_append_singleton, hfree, Option.none_or, if_pos rfl]

/-- **A resource at a free address keeps the tree grown**, if it has its place. -/
theorem IsGrown.append (ht : t.IsGrown) (hfree : t.get? r.address = none) (hr : t.Placed r) :
    IsGrown ⟨t.resources ++ [r]⟩ := by
  have hgrows : t.Grows ⟨t.resources ++ [r]⟩ := List.prefix_append _ _
  constructor
  · intro s hs
    rcases List.mem_append.1 hs with hs | hs
    · exact hgrows.get? (ht.unique s hs)
    · rw [List.mem_singleton.1 hs, get?_append_self hfree]
  · intro s hs
    rcases List.mem_append.1 hs with hs | hs
    · exact (ht.placed s hs).grow hgrows
    · rw [List.mem_singleton.1 hs]
      exact hr.grow hgrows

theorem grows_push (t : Tree) (parent : Resource) (name : String) (kind : Kind) (link : Link) :
    t.Grows (t.push parent name kind link) := List.prefix_append _ _

theorem get?_push (t : Tree) (parent : Resource) (name : String) (kind : Kind) (link : Link)
    (a : Address) :
    (t.push parent name kind link).get? a =
      (t.get? a).or
        (if parent.address.child name = a then some (parent.below name kind link) else none) :=
  get?_append_singleton t _ a

/-- A child that is new is found, -/
theorem get?_push_self (hfree : t.get? (parent.address.child name) = none) :
    (t.push parent name kind link).get? (parent.address.child name) =
      some (parent.below name kind link) :=
  get?_append_self (r := parent.below name kind link) hfree

/-- and nothing changes elsewhere. -/
theorem get?_push_of_ne (hne : parent.address.child name ≠ a) :
    (t.push parent name kind link).get? a = t.get? a := by
  rw [get?_push, if_neg hne, Option.or_none]

theorem IsGrown.push (ht : t.IsGrown) (hparent : t.get? parent.address = some parent)
    (hcontainer : parent.isContainer = true) (hfree : t.get? (parent.address.child name) = none) :
    (t.push parent name kind link).IsGrown :=
  ht.append hfree (.inr ⟨parent, name, hparent, hcontainer, rfl⟩)

/-- A child of a container is made from it. -/
theorem IsGrown.eq_below (ht : t.IsGrown) (hparent : t.get? parent.address = some parent)
    (hr : t.get? (parent.address.child name) = some r) : r = parent.below name r.kind r.link := by
  have haddress := address_of_get? hr
  rcases ht.placed r (mem_of_get? hr) with ⟨hnil, -⟩ | ⟨parent', name', hparent', -, hbelow⟩
  · rw [haddress] at hnil
    exact absurd hnil Address.segments_child_ne_nil
  · have hchild : parent'.address.child name' = parent.address.child name := by
      rw [← haddress, hbelow]
      rfl
    obtain ⟨habove, rfl⟩ := Address.child_injective hchild
    have : parent' = parent := by
      rw [habove, hparent] at hparent'
      exact (Option.some.inj hparent').symm
    rwa [this] at hbelow

/-- What stands at the address of a project is one: a child has segments. -/
theorem IsGrown.kind_of_root (ht : t.IsGrown) (hr : t.get? (.ofProject name) = some r) :
    r.kind = .project := by
  rcases ht.placed r (mem_of_get? hr) with ⟨-, hkind⟩ | ⟨parent, n, -, -, hbelow⟩
  · exact hkind
  · have hnil : r.address.segments = [] := by rw [address_of_get? hr]; rfl
    rw [hbelow] at hnil
    exact absurd hnil Address.segments_child_ne_nil

theorem IsGrown.isContainer_of_root (ht : t.IsGrown) (hr : t.get? (.ofProject name) = some r) :
    r.isContainer = true := by
  simp [ht.kind_of_root hr]

/-- What is above a resource is a container. -/
theorem IsGrown.exists_above (ht : t.IsGrown) (hr : t.get? ⟨project, segments ++ [name]⟩ = some r) :
    ∃ parent, t.get? ⟨project, segments⟩ = some parent ∧ parent.isContainer = true := by
  have haddress := address_of_get? hr
  rcases ht.placed r (mem_of_get? hr) with ⟨hnil, -⟩ | ⟨parent, name', hparent, hcontainer, hbelow⟩
  · rw [haddress] at hnil
    simp at hnil
  · have hchild : parent.address.child name' = Address.child ⟨project, segments⟩ name := by
      rw [show Address.child ⟨project, segments⟩ name = r.address from haddress.symm, hbelow]
      rfl
    rw [(Address.child_injective hchild).1] at hparent
    exact ⟨parent, hparent, hcontainer⟩

/-! ## Calls -/

/-- The steps of a call: folders on the way that are missing are made. -/
theorem makeFolders_eq_ok (ht : t.IsGrown) (hparent : t.get? parent.address = some parent)
    (hcontainer : parent.isContainer = true) (h : t.makeFolders parent names = .ok (t', r)) :
    t.Grows t' ∧ t'.IsGrown ∧ r.isContainer = true ∧
      t'.get? ⟨parent.address.project, parent.address.segments ++ names⟩ = some r ∧
      ∀ f ∈ t'.resources, f.isFile = true → f ∈ t.resources := by
  induction names generalizing t parent with
  | nil =>
    cases h
    exact ⟨.refl _, ht, hcontainer, by simpa using hparent, fun _ hf _ => hf⟩
  | cons name names ih =>
    rw [makeFolders] at h
    cases hchild : t.get? (parent.address.child name) with
    | none =>
      rw [hchild] at h
      -- the folder that is made is the container for the names behind it
      have hgrown : (t.push parent name .folder .none).IsGrown := ht.push hparent hcontainer hchild
      obtain ⟨hgrows, hgrown', hr, hget, hfiles⟩ := ih hgrown (get?_push_self hchild) rfl h
      refine ⟨(grows_push ..).trans hgrows, hgrown', hr, ?_, fun f hf hfile => ?_⟩
      · simpa [Resource.below, Address.child] using hget
      · rcases List.mem_append.1 (hfiles f hf hfile) with hf | hf
        · exact hf
        · rw [List.mem_singleton.1 hf] at hfile
          cases hfile
    | some s =>
      rw [hchild] at h
      simp only at h
      split_ifs at h with hfile
      have haddress := address_of_get? hchild
      have hs : s.isContainer = true := by simpa [Resource.isContainer, Resource.isFile] using hfile
      obtain ⟨hgrows, hgrown, hr, hget, hfiles⟩ := ih ht (haddress ▸ hchild) hs h
      refine ⟨hgrows, hgrown, hr, ?_, hfiles⟩
      simpa [haddress, Address.child] using hget

/-- The child is there after its call, made from the parent by a link that is
the same. -/
theorem addChild_eq_ok (ht : t.IsGrown) (hparent : t.get? parent.address = some parent)
    (hcontainer : parent.isContainer = true) (h : t.addChild parent name kind link = .ok t') :
    t.Grows t' ∧ t'.IsGrown ∧ ∃ link' : Link, link'.same link = true ∧
      t'.get? (parent.address.child name) = some (parent.below name kind link') ∧
      ∀ f ∈ t'.resources, f ∈ t.resources ∨ f = parent.below name kind link' := by
  unfold addChild at h
  cases hchild : t.get? (parent.address.child name) with
  | none =>
    rw [hchild] at h
    cases h
    refine ⟨grows_push .., ht.push hparent hcontainer hchild, link, Link.same_refl link,
      get?_push_self hchild, fun f hf => ?_⟩
    exact (List.mem_append.1 hf).imp_right List.mem_singleton.1
  | some r =>
    simp only [hchild] at h
    split_ifs at h with hsame
    cases h
    obtain ⟨rfl, hlink⟩ : r.kind = kind ∧ r.link.same link = true := by simpa using hsame
    refine ⟨.refl t, ht, r.link, hlink, ?_, fun f hf => .inl hf⟩
    rw [hchild, ← ht.eq_below hparent hchild]

/-- The way of a call to where its resource is to be: down from the project, over the
folders above the resource. -/
structure Reaches (t : Tree) (project : String) (above : List String) (root : Resource) (u : Tree)
    (parent : Resource) : Prop where
  get?_root : t.get? (.ofProject project) = some root
  address_root : root.address = .ofProject project
  isContainer_root : root.isContainer = true
  folders : t.makeFolders root above = .ok (u, parent)
  isGrown : u.IsGrown
  get?_parent : u.get? ⟨project, above⟩ = some parent
  address_parent : parent.address = ⟨project, above⟩
  isContainer_parent : parent.isContainer = true

/-- **A call for a resource that succeeds** gets to the container above it, and adds the
child there. -/
theorem exists_reaches_of_insert (ht : t.IsGrown)
    (h : t.insert project segments kind link = .ok t') :
    ∃ (above : List String) (name : String) (root : Resource) (u : Tree) (parent : Resource),
      segments = above ++ [name] ∧ t.Reaches project above root u parent ∧
      u.addChild parent name kind link = .ok t' := by
  unfold insert at h
  cases hroot : t.get? (.ofProject project) with
  | none =>
    rw [hroot] at h
    cases h
  | some root =>
    rcases List.eq_nil_or_concat' segments with rfl | ⟨above, name, rfl⟩
    · rw [hroot] at h
      cases h
    · simp only [hroot, List.getLast?_concat, List.dropLast_concat] at h
      obtain ⟨⟨u, parent⟩, hfolders, hchild⟩ := bind_eq_ok_iff.1 h
      have haddress : root.address = .ofProject project := address_of_get? hroot
      have hcontainer := ht.isContainer_of_root hroot
      obtain ⟨-, hgrown, hparent, hget, -⟩ :=
        makeFolders_eq_ok ht (haddress ▸ hroot) hcontainer hfolders
      simp only [haddress, Address.ofProject, List.nil_append] at hget
      exact ⟨above, name, root, u, parent, rfl,
        ⟨hroot, haddress, hcontainer, hfolders, hgrown, hget, address_of_get? hget,
          hparent⟩, hchild⟩

/-- **What a call for a resource comes to**: the tree grows, and the resource is
the child of the container above it, made from it by a link that is the same. No
other file is new. -/
theorem insert_eq_ok (ht : t.IsGrown) (h : t.insert project segments kind link = .ok t') :
    t.Grows t' ∧ t'.IsGrown ∧
      ∃ (above : List String) (name : String) (parent : Resource) (link' : Link),
      segments = above ++ [name] ∧ link'.same link = true ∧
      t'.get? ⟨project, above⟩ = some parent ∧
      t'.get? ⟨project, segments⟩ = some (parent.below name kind link') ∧
      ∀ f ∈ t'.resources, f.isFile = true → f ∈ t.resources ∨ f = parent.below name kind link' := by
  obtain ⟨above, name, root, u, parent, rfl, hreaches, hchild⟩ := exists_reaches_of_insert ht h
  have habove := hreaches.address_parent
  obtain ⟨hgrows, -, -, -, hfiles⟩ :=
    makeFolders_eq_ok ht (hreaches.address_root ▸ hreaches.get?_root)
    hreaches.isContainer_root hreaches.folders
  obtain ⟨hgrows', hgrown', link', hlink, hget', hnew⟩ := addChild_eq_ok hreaches.isGrown
    (habove ▸ hreaches.get?_parent) hreaches.isContainer_parent hchild
  rw [habove] at hget'
  refine ⟨hgrows.trans hgrows', hgrown', above, name, parent, link', rfl, hlink,
    hgrows'.get? hreaches.get?_parent, hget', fun f hf hfile => ?_⟩
  rcases hnew f hf with hf | hf
  · exact .inl (hfiles f hf hfile)
  · exact .inr hf

/-- What is above a container is a container. -/
theorem IsGrown.exists_of_append (ht : t.IsGrown) {above : List String}
    (hr : t.get? ⟨project, above ++ names⟩ = some r) (hcontainer : r.isContainer = true) :
    ∃ s, t.get? ⟨project, above⟩ = some s ∧ s.isContainer = true := by
  induction names using List.reverseRecOn generalizing r with
  | nil => exact ⟨r, by simpa using hr, hcontainer⟩
  | append_singleton names name ih =>
    rw [← List.append_assoc] at hr
    obtain ⟨s, hs, hcontainer⟩ := ht.exists_above hr
    exact ih hs hcontainer

/-- And something is at every address on the way to a resource. -/
theorem IsGrown.isSome_of_append (ht : t.IsGrown) {above : List String}
    (hr : (t.get? ⟨project, above ++ names⟩).isSome) :
    (t.get? ⟨project, above⟩).isSome := by
  obtain ⟨r, hr⟩ := Option.isSome_iff_exists.1 hr
  rcases List.eq_nil_or_concat' names with rfl | ⟨names, name, rfl⟩
  · rw [List.append_nil] at hr
    simp [hr]
  · rw [← List.append_assoc] at hr
    obtain ⟨p, hp, hcontainer⟩ := ht.exists_above hr
    obtain ⟨q, hq, -⟩ := ht.exists_of_append hp hcontainer
    simp [hq]

/-- So the project of a resource is there. -/
theorem IsGrown.isSome_root (ht : t.IsGrown) (hr : (t.get? a).isSome) :
    (t.get? (.ofProject a.project)).isSome := by
  have happend : (t.get? ⟨a.project, [] ++ a.segments⟩).isSome := hr
  exact ht.isSome_of_append happend

/-- No folder is made on the way to a container that is there. -/
theorem makeFolders_of_get? (ht : t.IsGrown) {above : List String}
    (hparent : t.get? ⟨project, above⟩ = some parent)
    (hr : t.get? ⟨project, above ++ names⟩ = some r) (hcontainer : r.isContainer = true) :
    t.makeFolders parent names = .ok (t, r) := by
  induction names generalizing above parent with
  | nil =>
    rw [List.append_nil, hparent] at hr
    rw [makeFolders, Option.some.inj hr]
  | cons name names ih =>
    have hr' : t.get? ⟨project, (above ++ [name]) ++ names⟩ = some r := by simpa using hr
    obtain ⟨s, hs, hfolder⟩ := ht.exists_of_append hr' hcontainer
    have hchild : t.get? (parent.address.child name) = some s := by
      rw [address_of_get? hparent]
      exact hs
    have hfile : s.isFile ≠ true := by simpa using hfolder
    rw [makeFolders, hchild]
    simp only [if_neg hfile]
    exact ih hs hr'

/-- **A call for a child of a container that is there** comes down to its last
step. -/
theorem insert_eq_addChild (ht : t.IsGrown) {above : List String}
    (hparent : t.get? ⟨project, above⟩ = some parent) (hcontainer : parent.isContainer = true) :
    t.insert project (above ++ [name]) kind link = t.addChild parent name kind link := by
  -- all that is above the container is there, so the call makes no folder
  obtain ⟨root, hroot, -⟩ :=
    ht.exists_of_append (show t.get? ⟨project, [] ++ above⟩ = some parent from hparent) hcontainer
  have hfolders : t.makeFolders root above = .ok (t, parent) :=
    makeFolders_of_get? ht hroot hparent hcontainer
  have hroot' : t.get? (.ofProject project) = some root := hroot
  rw [insert, hroot']
  simp only [List.getLast?_concat, List.dropLast_concat, hfolders]
  rfl

/-- **A call for what is there already changes nothing.** -/
theorem insert_of_get? (ht : t.IsGrown) {above : List String}
    (hr : t.get? ⟨project, above ++ [name]⟩ = some r) (hlink : r.link.same link = true) :
    t.insert project (above ++ [name]) r.kind link = .ok t := by
  obtain ⟨parent, hparent, hcontainer⟩ := ht.exists_above hr
  have hchild : t.get? (parent.address.child name) = some r := by
    rw [address_of_get? hparent]
    exact hr
  rw [insert_eq_addChild ht hparent hcontainer, addChild, hchild]
  simp [hlink]

/-- A call for a project adds it behind all other resources. -/
theorem addProject_eq_ok (ht : t.IsGrown) {location : Path}
    (h : t.addProject name location = .ok t') :
    t.Grows t' ∧ t'.IsGrown ∧
      t'.get? (.ofProject name) =
        some ⟨.ofProject name, .project, .none, some location.location, []⟩ ∧
      ∀ f ∈ t'.resources, f.isFile = true → f ∈ t.resources := by
  unfold addProject at h
  split_ifs at h with hproject
  cases h
  have hfree : t.get? (.ofProject name) = none := by simpa [hasProject] using hproject
  refine ⟨List.prefix_append _ _, ht.append hfree (.inl ⟨rfl, rfl⟩), get?_append_self hfree,
    fun f hf hfile => ?_⟩
  rcases List.mem_append.1 hf with hf | hf
  · exact hf
  · rw [List.mem_singleton.1 hf] at hfile
    cases hfile

/-- **Every call keeps the tree grown and takes nothing away.** -/
theorem apply_eq_ok (ht : t.IsGrown) {call : Call} (h : t.apply call = .ok t') :
    t.Grows t' ∧ t'.IsGrown := by
  cases call with
  | project name location =>
    obtain ⟨hgrows, hgrown, -⟩ := addProject_eq_ok ht h
    exact ⟨hgrows, hgrown⟩
  | resource project segments kind link =>
    obtain ⟨hgrows, hgrown, -⟩ := insert_eq_ok ht h
    exact ⟨hgrows, hgrown⟩

end Tree

end BuildMarkers
