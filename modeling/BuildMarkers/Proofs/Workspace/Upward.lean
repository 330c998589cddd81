import BuildMarkers.Proofs.Path.Plain
import BuildMarkers.Proofs.Workspace.Spellings
/-!
# Steps up in a tree

A segment `..` is a name like any other one to a tree, but in a location it is a step
up, which a lookup carries out before it looks. So an address that a `..` is a part of
(`goesUp`) has spellings that no lookup asks for. A configured link starts afresh: what
it places lies where its target does, however its address is spelled. If all targets are
absolute and no symbolic link stands behind a step up, then the spellings of a resource
have a step up just if its address does (`IsBuilt.follows`).
-/

namespace BuildMarkers

variable {t t' : Tree} {a : Address} {r parent : Resource} {name project : String}
  {segments names : List String} {kind : Kind} {link : Link} {l location : Route} {target : Path}

/-- The workspace places the resource at the target. -/
def Link.isLinked : Link → Bool
  | .linked _ => true
  | _ => false

/-- The target of the link, where there is one, is absolute. -/
def Link.IsAbsolute : Link → Prop
  | .none => True
  | .linked target => target.isAbsolute = true
  | .symbolic target present => present = true → target.isAbsolute = true

theorem Component.ofSegment_eq_parent_iff : ofSegment name = .parent ↔ name = ".." := by
  unfold ofSegment
  split_ifs with h <;> simp [h]

theorem Component.ofSegment_ne_current : ofSegment name ≠ .current := by
  unfold ofSegment
  split_ifs <;> simp

/-- An absolute path is seen alike from everywhere. -/
theorem Route.join_of_isAbsolute (h : target.isAbsolute = true) :
    location.join target.route = target.route := by
  rw [join, Path.isAbsolute_route, if_pos h]

namespace Tree

/-! ## Addresses that go up -/

/-- One of the names is `..`, the last name being the first, and no configured link
places what is at it or at a later one. -/
def climbs (t : Tree) (project : String) : List String → Bool
  | [] => false
  | name :: back =>
    !(t.linkAt ⟨project, (name :: back).reverse⟩).any Link.isLinked &&
      (name == ".." || t.climbs project back)

/-- A `..` leads to the address, and no configured link behind it. -/
def goesUp (t : Tree) (a : Address) : Bool := t.climbs a.project a.segments.reverse

@[simp] theorem goesUp_ofProject : t.goesUp (.ofProject name) = false := rfl

theorem goesUp_child : t.goesUp (a.child name) = true ↔
    (t.linkAt (a.child name)).any Link.isLinked = false ∧ (name = ".." ∨ t.goesUp a = true) := by
  rw [goesUp, Address.segments_child, List.reverse_concat, climbs, List.reverse_cons,
    List.reverse_reverse]
  simp only [Bool.and_eq_true, Bool.not_eq_true', Bool.or_eq_true, beq_iff_eq]
  rfl

/-- Names other than `..` do not make an address go up. -/
theorem goesUp_of_append (hnames : ".." ∉ names)
    (h : t.goesUp ⟨project, segments ++ names⟩ = true) :
    t.goesUp ⟨project, segments⟩ = true := by
  induction names using List.reverseRecOn with
  | nil => rwa [List.append_nil] at h
  | append_singleton names name ih =>
    rw [List.mem_append, not_or, List.mem_singleton] at hnames
    rw [← List.append_assoc] at h
    have hchild : t.goesUp (Address.child ⟨project, segments ++ names⟩ name) = true := h
    obtain ⟨-, hname | habove⟩ := goesUp_child.1 hchild
    · exact absurd hname.symm hnames.2
    · exact ih hnames.1 habove

theorem mem_segments_of_goesUp (h : t.goesUp a = true) : ".." ∈ a.segments := by
  by_contra hnames
  have hroot : t.goesUp ⟨a.project, []⟩ = true := goesUp_of_append hnames h
  cases hroot

/-- What a configured link places does not go up, whatever is in front of it. -/
theorem goesUp_of_linked (hr : t.get? a = some r) (hlink : r.link.isLinked = true) :
    t.goesUp a = false := by
  cases a using Address.childInduction with
  | project name => rfl
  | child a name =>
    rw [← Bool.not_eq_true, goesUp_child, linkAt, hr]
    simp [hlink]

/-- **Whether an address goes up stays** as it is while the tree grows: the links on the
way to what is there do. -/
theorem Grows.goesUp_eq (hgrows : t.Grows t') (ht : t.IsGrown) (ha : (t.get? a).isSome) :
    t'.goesUp a = t.goesUp a := by
  induction a using Address.childInduction with
  | project name => rfl
  | child a name ih =>
    obtain ⟨r, hr⟩ := Option.isSome_iff_exists.1 ha
    obtain ⟨parent, hparent, -⟩ := ht.exists_above hr
    have habove := ih (Option.isSome_of_eq_some hparent)
    have hlink : t'.linkAt (a.child name) = t.linkAt (a.child name) := by
      rw [linkAt, linkAt, hr, hgrows.get? hr]
    rw [Bool.eq_iff_iff, goesUp_child, goesUp_child, hlink, habove]

end Tree

/-! ## Spellings with steps up -/

namespace Resource

/-- Where the resource lies is said from the root on: by its link, or by the location of
a project. -/
structure IsAnchored (r : Resource) : Prop where
  link : r.link.IsAbsolute
  location : r.address.segments = [] → ∃ names, r.location = some (.ofNames names)

/-- A child that no configured link places is found where it lies, or behind a spelling
of its parent. -/
theorem of_mem_spellings_below (hlink : ∀ target, link ≠ .linked target)
    (hl : l ∈ (parent.below name kind link).spellings) :
    parent.locationOf name link = some l ∨ ∃ s ∈ parent.spellings, s ++ [.ofSegment name] = l := by
  cases hlocation : parent.locationOf name link with
  | none =>
    rw [spellings_below_of_none hlocation] at hl
    exact absurd hl List.not_mem_nil
  | some location =>
    rcases (mem_spellings_below hlocation hlink).1 hl with rfl | hl
    · exact .inl rfl
    · exact .inr (mem_spellingsBelow.1 hl)

/-- A symbolic link with an absolute target lies there. -/
theorem locationOf_symbolic (h : target.isAbsolute = true) :
    parent.locationOf name (.symbolic target true) = some target.location := by
  cases hlocation : parent.location with
  | none => simp only [locationOf, Link.locationBelow, hlocation, h, if_true]
  | some location =>
    simp only [locationOf, Link.locationBelow, hlocation, Route.join_of_isAbsolute h]
    rfl

end Resource

namespace Tree

/-- A route from the root, with a step up just if the address goes up. -/
structure Follows (t : Tree) (a : Address) (l : Route) : Prop where
  isAbsolute : l.isAbsolute = true
  current_notMem : .current ∉ l
  parent_mem_iff : .parent ∈ l ↔ t.goesUp a = true

/-- A normalized absolute route follows an address that does not go up. -/
theorem follows_ofNames {names : List FileName} (h : t.goesUp a = false) :
    t.Follows a (.ofNames names) where
  isAbsolute := rfl
  current_notMem := by simp [Route.ofNames]
  parent_mem_iff := by simp [Route.ofNames, h]

/-- Behind the name of a child that no configured link places it still does. -/
theorem Follows.child (h : t.Follows a l)
    (hlink : (t.linkAt (a.child name)).any Link.isLinked = false) :
    t.Follows (a.child name) (l ++ [.ofSegment name]) := by
  refine ⟨?_, ?_, ?_⟩
  · have habs := h.isAbsolute
    cases l with
    | nil => cases habs
    | cons c l => exact habs
  · rw [List.mem_append, List.mem_singleton, not_or]
    exact ⟨h.current_notMem, Component.ofSegment_ne_current.symm⟩
  · rw [List.mem_append, List.mem_singleton, h.parent_mem_iff, goesUp_child,
      eq_comm (a := Component.parent), Component.ofSegment_eq_parent_iff]
    tauto

/-- The spelling is found after normalizing just if the address does not go up. -/
theorem Follows.normalize_eq_iff (h : t.Follows a l) : l.normalize = l ↔ t.goesUp a = false := by
  rw [Route.normalize_eq_self_iff h.isAbsolute h.current_notMem, h.parent_mem_iff, Bool.not_eq_true]

/-- **A spelling has a step up just if the address goes up**, in a tree whose resources
are anchored, and of which only plain ones go up. The induction is on the address. -/
theorem IsBuilt.follows (ht : t.IsBuilt) (hanchored : ∀ r ∈ t.resources, r.IsAnchored)
    (hplain : ∀ r ∈ t.resources, t.goesUp r.address = true → r.link = .none)
    (hr : t.get? a = some r) (hl : l ∈ r.spellings) : t.Follows a l := by
  induction a using Address.childInduction generalizing r l with
  | project name =>
    obtain ⟨location, rfl⟩ := ht.exists_root hr
    obtain ⟨names, hnames⟩ := (hanchored _ (mem_of_get? hr)).location rfl
    have hlocation : l = location.location := by simpa [Resource.spellings, Resource.root] using hl
    rw [hlocation, Option.some.inj hnames]
    exact follows_ofNames rfl
  | child a name ih =>
    obtain ⟨parent, hparent, -⟩ := ht.isGrown.exists_above hr
    obtain rfl : parent.address = a := address_of_get? hparent
    have haddress : r.address = parent.address.child name := address_of_get? hr
    have hlink : t.linkAt (parent.address.child name) = some r.link := by
      rw [linkAt, hr, Option.map_some]
    have habsolute : r.link.IsAbsolute := (hanchored r (mem_of_get? hr)).link
    have hnone := hplain r (mem_of_get? hr)
    rw [haddress] at hnone
    rw [ht.isGrown.eq_below hparent hr] at hl
    -- behind the name the spellings of the parent go on as they are
    have hcontinued (hlinked : r.link.isLinked = false) (s : Route) (hs : s ∈ parent.spellings) :
        t.Follows (parent.address.child name) (s ++ [.ofSegment name]) :=
      (ih hparent hs).child (by rw [hlink]; exact hlinked)
    cases hcase : r.link with
    | none =>
      rw [hcase] at hl hcontinued
      rcases Resource.of_mem_spellings_below (by simp) hl with hlocation | ⟨s, hs, rfl⟩
      · obtain ⟨s, hs, rfl⟩ := Option.map_eq_some_iff.1 hlocation
        exact hcontinued rfl s (by simp [Resource.spellings, hs])
      · exact hcontinued rfl s hs
    | linked target =>
      have hup : t.goesUp (parent.address.child name) = false :=
        goesUp_of_linked hr (by rw [hcase]; rfl)
      rw [hcase] at hl habsolute
      obtain ⟨names, -, hnames⟩ := Path.location_eq_ofNames habsolute
      have hlocation : l = target.location := by
        simpa [Resource.below, Resource.spellings, Resource.locationOf, Link.locationBelow,
          Resource.aliasesOf, Link.aliasesAmong] using hl
      rw [hlocation, hnames]
      exact follows_ofNames hup
    | symbolic target present =>
      rw [hcase] at hl habsolute hcontinued hnone
      -- no symbolic link stands behind a step up
      have hup : t.goesUp (parent.address.child name) = false := by
        rw [← Bool.not_eq_true]
        intro hup
        cases hnone hup
      cases present with
      | false =>
        rw [Resource.spellings_below_of_none rfl] at hl
        exact absurd hl List.not_mem_nil
      | true =>
        obtain ⟨names, -, hnames⟩ := Path.location_eq_ofNames (habsolute rfl)
        rcases Resource.of_mem_spellings_below (by simp) hl with hlocation | ⟨s, hs, rfl⟩
        · rw [Resource.locationOf_symbolic (habsolute rfl), Option.some.injEq, hnames] at hlocation
          rw [← hlocation]
          exact follows_ofNames hup
        · exact hcontinued rfl s hs

end Tree

end BuildMarkers
