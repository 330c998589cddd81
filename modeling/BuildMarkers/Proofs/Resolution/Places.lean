import BuildMarkers.Proofs.Disk.Standing
import BuildMarkers.Proofs.Resolution.Relative
import BuildMarkers.Proofs.Text.RoundTrip
import Mathlib.Data.List.Infix
import Mathlib.Data.Nat.SuccPred
/-!
# Walks and places

In a tree without links a resource lies where its names say, behind the location
of its project. A walk of the case-sensitive resolver takes a `..` back to the
parent, and normalizing a route takes it back to the name before it: as long as
the steps stay within the project that they start from, the two keep pace
(`walk?_eq`, `foldl_push_segments`). So the relative way and the absolute one agree
(`resolveRelative_agrees`): a reference leads to a file if and only if one lies
where the path behind the build directory normalizes to, and the walk may fail on
the way, at a folder that is missing or a name below a file, without harm.
-/

namespace BuildMarkers

variable {d : Disk} {t : Tree} {a c : Address} {r : Resource} {route : Route} {location : Route}
  {segment project : String} {names segments : List String}

/-- A segment that is not empty is a `.`, which says nothing, or a step. -/
theorem Component.ofPiece?_encode (h : segment ≠ "") :
    ofPiece? (Text.encode segment) = if segment = "." then none else some (.ofSegment segment) := by
  have hempty : Text.encode segment ≠ [] := fun heq => h (Text.encode_injective (heq.trans rfl))
  by_cases hdot : segment = "."
  · subst hdot
    rfl
  by_cases hup : segment = ".."
  · subst hup
    rfl
  have hdot' : Text.encode segment ≠ [dot] :=
    fun heq => hdot (Text.encode_injective (heq.trans rfl))
  have hup' : Text.encode segment ≠ [dot, dot] :=
    fun heq => hup (Text.encode_injective (heq.trans rfl))
  simp [ofPiece?, Path.isIdle, ofSegment, FileName.ofString, hempty, hdot, hdot', hup, hup']

/-! ## Places that are not on the disk -/

namespace Disk

/-- Nothing is on the disk along the route, the root apart. -/
def Lacks (d : Disk) (r : Route) : Prop := ∀ s, s <+: r → s ≠ [.root] → d.resolved? s = none

instance (d : Disk) (r : Route) : Decidable (d.Lacks r) :=
  decidable_of_iff (∀ s ∈ r.inits, s ≠ [.root] → d.resolved? s = none) (by simp [Lacks])

theorem resolved?_root (d : Disk) : d.resolved? [.root] = some [.root] := rfl

/-- **What is not on the disk has one spelling**, since at most the root is left to
be resolved. -/
theorem eq_of_mem_spellings (hd : d.Lacks route.normalize) {key : Route}
    (hkey : key ∈ d.spellings route) :
    key = route.normalize := by
  have honly : ∀ {s key}, s <+: route.normalize → d.resolved? s = some key →
      s = [.root] ∧ key = [.root] := by
    intro s key hs hresolved
    by_cases hroot : s = [.root]
    · rw [hroot, resolved?_root] at hresolved
      exact ⟨hroot, (Option.some.inj hresolved).symm⟩
    · simp [hd s hs hroot] at hresolved
  simp only [spellings, List.mem_eraseDups, List.mem_cons, List.mem_filterMap, id] at hkey
  rcases hkey with hkey | ⟨_, rfl | rfl | hnone, hkey⟩
  · exact hkey
  · unfold resolvedParent? at hkey
    split at hkey
    · next n hlast =>
      obtain ⟨parent, hparent, rfl⟩ := Option.map_eq_some_iff.1 hkey
      obtain ⟨hdrop, rfl⟩ := honly (List.dropLast_prefix _) hparent
      rw [← hdrop]
      exact List.dropLast_append_getLast? _ hlast
    · cases hkey
  · obtain ⟨hroot, rfl⟩ := honly List.prefix_rfl hkey
    exact hroot.symm
  · exact absurd hnone List.not_mem_nil

end Disk

/-! ## Trees without links -/

/-- **A resource lies behind its project along its names**, if no link is in the
tree, and is found there alone. -/
theorem Tree.IsBuilt.lies_of_unlinked (ht : t.IsBuilt) (hlinks : ∀ r ∈ t.resources, r.link = .none)
    (hr : t.get? a = some r) : ∃ location : Path,
      t.get? (.ofProject a.project) = some (.root a.project location.location) ∧
        r.location = some (location.location ++ a.segments.map .ofSegment) ∧ r.aliases = [] := by
  induction a using Address.childInduction generalizing r with
  | project name =>
    obtain ⟨location, rfl⟩ := ht.exists_root hr
    exact ⟨location, hr, by simp [Resource.root], rfl⟩
  | child a name ih =>
    obtain ⟨parent, hparent, -⟩ := ht.isGrown.exists_above hr
    obtain ⟨location, hroot, hlocation, haliases⟩ := ih hparent
    obtain rfl : parent.address = a := Tree.address_of_get? hparent
    have hbelow := ht.isGrown.eq_below hparent hr
    rw [hlinks r (Tree.mem_of_get? hr)] at hbelow
    refine ⟨location, hroot, ?_, ?_⟩
    · rw [hbelow]
      simp [Resource.below, Resource.locationOf, Link.locationBelow, hlocation]
    · rw [hbelow]
      simp [Resource.below, Resource.locationOf, Link.locationBelow, hlocation, Resource.aliasesOf,
        Link.aliasesAmong, Resource.spellingsBelow, Resource.spellings, haliases]

/-- A resource is found at its location and nowhere else. -/
theorem Tree.IsBuilt.mem_foundAt_of_unlinked (ht : t.IsBuilt)
    (hlinks : ∀ r ∈ t.resources, r.link = .none)
    {l : Route} : r ∈ t.foundAt l ↔ r ∈ t.resources ∧ r.location = some l := by
  rw [Tree.foundAt, List.mem_filter, List.contains_iff_mem]
  refine and_congr_right fun hr => ?_
  obtain ⟨location, -, hlocation, haliases⟩ := ht.lies_of_unlinked hlinks (ht.isGrown.unique r hr)
  simp [Resource.spellings, hlocation, haliases, eq_comm]

/-- **A file is found behind the location of its project.** -/
theorem Tree.IsBuilt.exists_foundAt (ht : t.IsBuilt) (hlinks : ∀ r ∈ t.resources, r.link = .none)
    (hroot : t.get? (.ofProject project) = some (.root project location))
    (hfile : t.isFile ⟨project, names⟩ = true) :
    ∃ f ∈ t.foundAt (location ++ names.map Component.ofSegment),
      f.address = ⟨project, names⟩ ∧ f.isFile = true := by
  obtain ⟨f, hf, hisFile⟩ := Tree.isFile_iff.1 hfile
  obtain ⟨location', hroot', hlocation, -⟩ := ht.lies_of_unlinked hlinks hf
  have hsame : location'.location = location := by
    simpa [Resource.root] using hroot'.symm.trans hroot
  refine ⟨f, (ht.mem_foundAt_of_unlinked hlinks).2 ⟨Tree.mem_of_get? hf, ?_⟩,
    Tree.address_of_get? hf, hisFile⟩
  rw [hlocation, hsame]

/-- **A lookup finds what is noted at the place**, if the place is not on the disk. -/
theorem Tree.fileAtLocation_of_lacks (hd : d.Lacks route.normalize) (preferred : String) :
    (∀ a, t.fileAtLocation d preferred route = some a →
      ∃ f ∈ t.foundAt route.normalize, f.address = a ∧ f.isFile = true) ∧
    ((t.fileAtLocation d preferred route).isSome ↔
      ∃ f ∈ t.foundAt route.normalize, f.isFile = true) := by
  have hfound : ∀ a, t.fileAtLocation d preferred route = some a →
      ∃ f ∈ t.foundAt route.normalize, f.address = a ∧ f.isFile = true := by
    intro a ha
    obtain ⟨key, hkey, hfind⟩ := Tree.exists_of_atLocation ha
    rw [Disk.eq_of_mem_spellings hd hkey] at hfind
    obtain ⟨f, hf, haddress⟩ := Option.map_eq_some_iff.1 hfind
    obtain ⟨hmem, hfile, hspelling⟩ := Tree.of_select hf
    exact ⟨f, List.mem_filter.2 ⟨hmem, List.contains_iff_mem.2 hspelling⟩, haddress, hfile⟩
  refine ⟨hfound, fun h => ?_, ?_⟩
  · obtain ⟨a, ha⟩ := Option.isSome_iff_exists.1 h
    obtain ⟨f, hf, -, hfile⟩ := hfound a ha
    exact ⟨f, hf, hfile⟩
  · rintro ⟨f, hf, hfile⟩
    obtain ⟨g, -, -, hlookup⟩ := Tree.atLocation_of_foundAt hf hfile d preferred
    exact Option.isSome_of_eq_some hlookup

namespace Resolver

/-! ## The names that a walk goes along -/

/-- The names down to where a segment leads from where these names lead. -/
def follow (names : List String) (segment : String) : List String :=
  if segment = "." then names else if segment = ".." then names.dropLast else names ++ [segment]

/-- From so many names below a project, no prefix of the segments leads out of it. -/
def StaysWithin (depth : ℕ) (segments : List String) : Prop :=
  ∀ p, p <+: segments → p.count ".." ≤ depth + p.countP fun s => s ≠ "." ∧ s ≠ ".."

instance (depth : ℕ) (segments : List String) : Decidable (StaysWithin depth segments) :=
  decidable_of_iff (∀ p ∈ segments.inits, p.count ".." ≤ depth + p.countP fun s =>
    s ≠ "." ∧ s ≠ "..") (by simp [StaysWithin])

/-- A walk that stays within the project goes up only where it has gone down, and
stays within the project after that. -/
theorem staysWithin_cons (h : StaysWithin names.length (segment :: segments)) :
    (segment = ".." → names ≠ []) ∧ StaysWithin (follow names segment).length segments := by
  have hcons : ∀ p, p <+: segments →
      (segment :: p).count ".." ≤ names.length + (segment :: p).countP fun s =>
        s ≠ "." ∧ s ≠ ".." :=
    fun p hp => h (segment :: p) (List.prefix_cons_inj segment |>.2 hp)
  constructor
  · rintro rfl rfl
    simpa using hcons [] List.nil_prefix
  · intro p hp
    have hle := hcons p hp
    by_cases hdot : segment = "."
    · subst hdot
      simpa [follow] using hle
    · by_cases hup : segment = ".."
      · subst hup
        have hone := hcons [] List.nil_prefix
        simp [follow] at hle hone ⊢
        omega
      · simp [follow, hdot, hup] at hle ⊢
        omega

theorem follow_ne_up (hnames : ".." ∉ names) : ".." ∉ follow names segment := by
  unfold follow
  split_ifs with hdot hup
  · exact hnames
  · exact fun h => hnames (List.mem_of_mem_dropLast h)
  · simpa [hnames] using Ne.symm hup

/-- One step of a route that is normalized goes where the segment leads. -/
theorem push_segment (location : Route) (hnames : ".." ∉ names) (hdot : segment ≠ ".")
    (hup : segment = ".." → names ≠ []) :
    Route.push (location ++ names.map Component.ofSegment).reverse (.ofSegment segment) =
      (location ++ (follow names segment).map Component.ofSegment).reverse := by
  by_cases hsegment : segment = ".."
  · subst hsegment
    obtain ⟨names, name, rfl⟩ := (List.eq_nil_or_concat' names).resolve_left (hup rfl)
    have hname : name ≠ ".." := by
      rintro rfl
      exact hnames (by simp)
    simp [follow, Component.ofSegment, hname, Route.push]
  · simp [follow, Component.ofSegment, hdot, hsegment, Route.push_name]

/-- **Normalizing goes where the segments lead.** The induction is on the segments,
and the names down to where they lead stay free of steps up. -/
theorem foldl_push_segments (location : Route) (hnames : ".." ∉ names)
    (hsegments : ∀ s ∈ segments, s ≠ "") (hstays : StaysWithin names.length segments) :
    (segments.filterMap fun s => Component.ofPiece? (Text.encode s)).foldl Route.push
        (location ++ names.map Component.ofSegment).reverse =
      (location ++ (segments.foldl follow names).map Component.ofSegment).reverse := by
  induction segments generalizing names with
  | nil => rfl
  | cons segment segments ih =>
    obtain ⟨hup, hrest⟩ := staysWithin_cons hstays
    obtain ⟨hsegment, hsegments⟩ := List.forall_mem_cons.1 hsegments
    have hnext := ih (follow_ne_up hnames) hsegments hrest
    rw [List.foldl_cons, ← hnext, List.filterMap_cons, Component.ofPiece?_encode hsegment]
    by_cases hdot : segment = "."
    · simp [hdot, follow]
    · rw [if_neg hdot]
      simp only [List.foldl_cons]
      rw [push_segment location hnames hdot hup]

/-- A child in the very letter case has the very name. -/
theorem child?_sensitive {b : Address} (h : child? .sensitive t a segment = some b) :
    b = a.child segment := by
  unfold child? at h
  split_ifs at h with hsome
  · exact (Option.some.inj h).symm
  · obtain ⟨name, hname, rfl⟩ := Option.map_eq_some_iff.1 h
    have hmem : name ∈ (t.children a).filter (CaseRule.sensitive.same · segment) := by
      rw [single?_eq_some_iff.1 hname]
      exact List.mem_singleton_self name
    have heq : name = segment := by simpa [CaseRule.same] using (List.mem_filter.1 hmem).2
    rw [heq]

/-- One step of a walk goes where the segment leads, if it goes anywhere. -/
theorem step_sensitive {here : Position} (hup : segment = ".." → names ≠ [])
    (h : step .sensitive t (.resource ⟨project, names⟩) segment = some here) :
    here = .resource ⟨project, follow names segment⟩ := by
  unfold step at h
  unfold follow
  split_ifs at h ⊢ with hdot hsegment
  · exact (Option.some.inj h).symm
  · have hparent : Address.parent? ⟨project, names⟩ = some ⟨project, names.dropLast⟩ := by
      simp [Address.parent?, hup hsegment]
    simp only [hparent, Option.map_some, Option.getD_some] at h
    exact (Option.some.inj h).symm
  · obtain ⟨b, hb, rfl⟩ := Option.map_eq_some_iff.1 h
    rw [child?_sensitive hb]
    rfl

/-- **A walk goes where the segments lead**, if it comes to an end. -/
theorem walk?_eq (hstays : StaysWithin c.segments.length segments)
    (h : walk? .sensitive t c segments = some a) :
    a = ⟨c.project, segments.foldl follow c.segments⟩ := by
  have hwalk : segments.foldlM (step .sensitive t) (.resource c) = some (.resource a) := by
    unfold walk? at h
    split at h
    · next b hb => rw [hb, Option.some.inj h]
    · cases h
  clear h
  obtain ⟨project, names⟩ := c
  induction segments generalizing names with
  | nil =>
    have hhere : (Position.resource ⟨project, names⟩) = .resource a := Option.some.inj hwalk
    exact (Position.resource.inj hhere).symm
  | cons segment segments ih =>
    obtain ⟨hup, hrest⟩ := staysWithin_cons hstays
    obtain ⟨here, hstep, hwalk⟩ := Option.bind_eq_some_iff.1 hwalk
    rw [step_sensitive hup hstep] at hwalk
    exact ih _ hrest hwalk

/-- What lies where an absolute path leads is reached by names alone: no `..` is left
in the place. -/
theorem up_notMem_of_location {directory : Path} (habs : directory.isAbsolute = true)
    (h : directory.location = location ++ names.map Component.ofSegment) : ".." ∉ names := by
  intro hup
  obtain ⟨names', -, hnormal⟩ := Path.location_eq_ofNames habs
  have hparent : Component.parent ∈ directory.location := by
    rw [h]
    exact List.mem_append_right _ (List.mem_map.2 ⟨"..", hup, rfl⟩)
  rw [hnormal] at hparent
  simp [Route.ofNames] at hparent

/-- Behind an absolute path the steps of a reference lead along its segments. -/
theorem normalize_append_steps {directory : Path} {ref : Reference}
    (habs : directory.isAbsolute = true)
    (h : directory.location = location ++ names.map Component.ofSegment)
    (hstays : StaysWithin names.length ref.segments) :
    (directory.route ++ ref.steps).normalize =
      location ++ (ref.segments.foldl follow names).map Component.ofSegment := by
  have hsegments : ∀ s ∈ ref.segments, s ≠ "" := fun s hs => (Text.mem_segments hs).1
  have hfold := foldl_push_segments location (up_notMem_of_location habs h) hsegments hstays
  calc (directory.route ++ ref.steps).normalize
      = (ref.steps.foldl Route.push directory.location.reverse).reverse :=
        Route.normalize_append _ _
    _ = (location ++ (ref.segments.foldl follow names).map
      Component.ofSegment).reverse.reverse := by
        rw [h]
        exact congrArg List.reverse hfold
    _ = location ++ (ref.segments.foldl follow names).map Component.ofSegment :=
      List.reverse_reverse _

/-- **The relative way and the absolute one agree** where no link is in the tree, the
build directory is a container of it, the reference stays within the project of
this container, and the place that it leads to is not on the disk. The resolver
finds a file if and only if one lies at that place, and what it finds lies there. -/
theorem resolveRelative_agrees {calls : List Call} (hcalls : ∀ call ∈ calls, call.IsSpelled)
    (hlinks : ∀ r ∈ (Tree.empty.applyAll calls).resources, r.link = .none)
    (cygwin : CygwinMap) (d : Disk) (project : String) (directory : Path) (c : Address)
    (hc : (Tree.empty.applyAll calls).containerAt project directory.location = some c)
    (habs : directory.isAbsolute = true) (ref : Reference)
    (hstays : StaysWithin c.segments.length ref.segments)
    (hdisk : d.Lacks (directory.route ++ ref.steps).normalize) :
    let t := Tree.empty.applyAll calls
    let place := (directory.route ++ ref.steps).normalize
    let found := resolveRelative ⟨.sensitive, cygwin⟩ t d ⟨project, directory.route⟩ ref
    (found.isSome ↔ ∃ f ∈ t.foundAt place, f.isFile = true) ∧
    (∀ a, found = some a → ∃ f, t.get? a = some f ∧ f.isFile = true ∧ f.location = some place) ∧
    (found.isSome ↔ (t.fileAtLocation d project (directory.route ++ ref.steps)).isSome) := by
  intro t place found
  have ht : t.IsBuilt := Tree.isBuilt_applyAll hcalls
  -- where the container lies, and with it every resource of its project
  obtain ⟨r, hr, rfl⟩ := Option.map_eq_some_iff.1 hc
  obtain ⟨hmem, -, hspelling⟩ := Tree.of_select hr
  obtain ⟨location, hroot, hlocation, haliases⟩ :=
    ht.lies_of_unlinked hlinks (ht.isGrown.unique r hmem)
  have hdirectory : directory.location =
      location.location ++ r.address.segments.map Component.ofSegment := by
    simpa [Resource.spellings, hlocation, haliases] using hspelling
  have hplace := normalize_append_steps habs hdirectory hstays
  have hstart : t.containerAtLocation d project directory.route = some r.address := by
    rw [Tree.containerAtLocation, Tree.atLocation, ← Path.location, hc]
    rfl
  -- the relative way ends with a lookup of the same place
  have hsame : (directory.route.normalize ++ ref.steps).normalize = place := by
    rw [Route.normalize_append, Route.normalize_normalize, ← Route.normalize_append]
  have hdisk' : d.Lacks (directory.route.normalize ++ ref.steps).normalize := hsame.symm ▸ hdisk
  obtain ⟨hlies, hlookup⟩ := t.fileAtLocation_of_lacks hdisk' project
  rw [hsame] at hlies hlookup
  have hfound : ∀ a, found = some a → ∃ f ∈ t.foundAt place, f.address = a ∧ f.isFile = true := by
    intro a ha
    rcases (Option.orElse_eq_some _ _ _).1 ha with hwalked | ⟨-, hlookedUp⟩
    · simp only [Option.bind_eq_bind, Option.bind_eq_some_iff,
        Option.ite_none_right_eq_some] at hwalked
      obtain ⟨start, hcontainer, b, hwalk, hfile, hb⟩ := hwalked
      obtain rfl := Option.some.inj (hstart.symm.trans hcontainer)
      obtain rfl := Option.some.inj hb
      obtain rfl := walk?_eq hstays hwalk
      have hfile' := ht.exists_foundAt hlinks hroot hfile
      rwa [← hplace] at hfile'
    · exact hlies a hlookedUp
  have hiff : found.isSome ↔ ∃ f ∈ t.foundAt place, f.isFile = true := by
    constructor
    · intro h
      obtain ⟨a, ha⟩ := Option.isSome_iff_exists.1 h
      obtain ⟨f, hf, -, hfile⟩ := hfound a ha
      exact ⟨f, hf, hfile⟩
    · intro h
      have hsome := hlookup.2 h
      rw [Option.isSome_iff_ne_none] at hsome ⊢
      exact fun hnone => hsome ((Option.orElse_eq_none _ _).1 hnone).2
  refine ⟨hiff, fun a ha => ?_, hiff.trans (t.fileAtLocation_of_lacks hdisk project).2.symm⟩
  obtain ⟨f, hf, rfl, hfile⟩ := hfound a ha
  obtain ⟨hmem, hlocation⟩ := (ht.mem_foundAt_of_unlinked hlinks).1 hf
  exact ⟨f, ht.isGrown.unique f hmem, hfile, hlocation⟩

/-- From a folder of one project, by way of a folder that is missing, to a place that
two projects have: the walk comes to no end, and the file is found at its place. -/
theorem resolveRelative_agrees_shared :
    ∃ f, (Tree.empty.applyAll sharedCalls).get? ⟨"P", ["lib", "a.c"]⟩ = some f ∧ f.isFile = true ∧
      f.location = some (.ofNames [.ofString "ws", .ofString "lib", .ofString "a.c"]) := by
  have hspelled : ∀ call ∈ sharedCalls, call.IsSpelled := by decide
  have hagrees := resolveRelative_agrees hspelled (by decide) ⟨none, []⟩ .bare "P"
    (.ofString "/ws/./src") ⟨"P", ["src"]⟩ (by decide) (by decide)
      (.ofString "gone/..\\../lib/a.c") (by decide)
    (by decide)
  exact hagrees.2.1 ⟨"P", ["lib", "a.c"]⟩ (by decide +kernel)

end Resolver

end BuildMarkers
