import BuildMarkers.Proofs.Resolution.Rules
import BuildMarkers.Proofs.Workspace.Scanned
import BuildMarkers.Proofs.Workspace.Upward
import BuildMarkers.Settings.Validation
import Mathlib.Data.List.Permutation
/-!
# Where the resources of a scan come from

A resource of a scanned tree is a project, what a configured link places, a folder made
on the way to that, or an entry of a directory (`Tree.Origin`). No entry is called `..`,
but the path of a configured link may have such a segment, and then there is a folder
with this name on the way to the resource that the link places. So a scanned tree has
normalized locations and no name `..` just if no project and no segment of such a path
is called so (`foundAt_of_scan`). Whatever goes up in spite of it is a plain folder that
no lookup finds.
-/

namespace BuildMarkers

variable {d : Disk} {t t' u : Tree} {a : Address} {r parent : Resource} {name project text : String}
  {segments base more : List String} {kind : Kind} {link : Link} {place : Place} {target : Path}
  {p : Settings.Project} {ps : List Settings.Project}

namespace Survey

/-- The target of the configured link is there. -/
def Reaches (d : Disk) (l : Settings.LinkedResource) : Prop :=
  ∃ place, d.canonicalize l.target = .ok place

/-- A configured link places a resource at the address. -/
def Places (d : Disk) (ps : List Settings.Project) (a : Address) : Prop :=
  ∃ p ∈ ps, ∃ l ∈ p.links, Reaches d l ∧ a = ⟨p.name, Tree.segmentsOf l.path⟩

end Survey

/-- An entry of a directory can have the link: no configured one, and only absolute
targets. -/
def Link.IsFound (link : Link) : Prop := link.isLinked = false ∧ link.IsAbsolute

namespace Tree

open Survey

/-- How the resource has come into the tree of a scan. -/
inductive Origin (t : Tree) (d : Disk) (ps : List Settings.Project) (r : Resource) : Prop
  /-- It is a project. -/
  | project {names : List FileName} : r.address.segments = [] → r.link = .none →
      r.location = some (.ofNames names) → Origin t d ps r
  /-- A configured link places it. -/
  | link {target : Path} : r.address.segments ≠ [] → Places d ps r.address →
      r.link = .linked target →
      target.isAbsolute = true → Origin t d ps r
  /-- It is a folder on the way to what a configured link places. -/
  | way {more : List String} : r.address.segments ≠ [] → more ≠ [] →
      Places d ps ⟨r.address.project, r.address.segments ++ more⟩ → r.kind = .folder →
        r.link = .none →
      Origin t d ps r
  /-- It is an entry of a directory. -/
  | entry {a : Address} {name : String} : r.address = a.child name → name ≠ ".." →
      t.goesUp a = false →
      r.link.IsFound → Origin t d ps r

/-- A tree that calls have built, with resources that a scan comes upon. -/
structure IsSurveyed (t : Tree) (d : Disk) (ps : List Settings.Project) : Prop where
  isBuilt : t.IsBuilt
  origin : ∀ r ∈ t.resources, t.Origin d ps r

theorem isSurveyed_empty : empty.IsSurveyed d ps := ⟨.empty, by simp [empty]⟩

/-! ## What an origin says -/

namespace Origin

theorem isAnchored (h : t.Origin d ps r) : r.IsAnchored := by
  cases h with
  | project _ hlink hlocation => exact ⟨by rw [hlink]; trivial, fun _ => ⟨_, hlocation⟩⟩
  | link hne _ hlink habs => exact ⟨by rw [hlink]; exact habs, fun hnil => absurd hnil hne⟩
  | way hne _ _ _ hlink => exact ⟨by rw [hlink]; trivial, fun hnil => absurd hnil hne⟩
  | entry haddress _ _ hfound =>
    refine ⟨hfound.2, fun hnil => ?_⟩
    rw [haddress] at hnil
    exact absurd hnil Address.segments_child_ne_nil

/-- **What goes up is a plain folder** on the way to what a configured link places. -/
theorem of_goesUp (h : t.Origin d ps r) (hr : t.get? r.address = some r)
    (hup : t.goesUp r.address = true) :
    r.kind = .folder ∧ r.link = .none ∧
      ∃ more ≠ [], Places d ps ⟨r.address.project, r.address.segments ++ more⟩ := by
  cases h with
  | project hnil _ _ =>
    rw [Address.eq_ofProject_of_segments hnil] at hup
    cases hup
  | link _ _ hlink _ =>
    rw [goesUp_of_linked hr (by rw [hlink]; rfl)] at hup
    cases hup
  | way _ hmore hplaces hkind hlink => exact ⟨hkind, hlink, _, hmore, hplaces⟩
  | entry haddress hname habove _ =>
    rw [haddress, goesUp_child, habove] at hup
    obtain ⟨-, hup | hup⟩ := hup
    · exact absurd hup hname
    · cases hup

/-- What is called `..` is a project or on the path of a configured link. -/
theorem of_name (h : t.Origin d ps r) (hname : r.address.name = "..") :
    r.address = .ofProject ".." ∨ ∃ a, Places d ps a ∧ ".." ∈ a.segments := by
  have hmem (hne : r.address.segments ≠ []) : ".." ∈ r.address.segments := by
    rw [← hname]
    exact Address.name_mem hne
  cases h with
  | project hnil _ _ =>
    have hroot := Address.eq_ofProject_of_segments hnil
    rw [hroot] at hname
    exact .inl (hroot.trans (congrArg Address.ofProject hname))
  | link hne hplaces _ _ => exact .inr ⟨_, hplaces, hmem hne⟩
  | way hne _ hplaces _ _ => exact .inr ⟨_, hplaces, List.mem_append_left _ (hmem hne)⟩
  | entry haddress hother _ _ =>
    rw [haddress, Address.name_child] at hname
    exact absurd hname hother

/-- An origin stays while the tree grows. -/
theorem grow (h : t.Origin d ps r) (ht : t.IsGrown) (hgrows : t.Grows t') (hr : r ∈ t.resources) :
    t'.Origin d ps r := by
  cases h with
  | project hnil hlink hlocation => exact .project hnil hlink hlocation
  | link hne hplaces hlink habs => exact .link hne hplaces hlink habs
  | way hne hmore hplaces hkind hlink => exact .way hne hmore hplaces hkind hlink
  | @entry a name haddress hname hup hfound =>
    have hget := ht.unique r hr
    rw [haddress] at hget
    obtain ⟨parent, hparent, -⟩ := ht.exists_above hget
    exact .entry haddress hname
      ((hgrows.goesUp_eq ht (Option.isSome_of_eq_some hparent)).trans hup) hfound

end Origin

/-! ## What a call adds -/

/-- **A call for a resource keeps the tree surveyed**, if what is new has an origin. -/
theorem IsSurveyed.insert (ht : t.IsSurveyed d ps) (hsegments : ∀ s ∈ segments, IsSegment s)
    (h : t.insert project segments kind link = .ok t')
    (hnew : ∀ r, t.get? r.address = none → r.address.segments ≠ [] →
      Made project segments kind link r →
      t'.Origin d ps r) :
    t'.IsSurveyed d ps ∧ t.Grows t' := by
  have hcall : Call.IsSpelled (.resource project segments kind link) :=
    exists_eq_segmentsOf_iff.2 hsegments
  have hbuilt : t'.IsBuilt := ht.isBuilt.apply hcall h
  obtain ⟨hgrows, -⟩ := insert_eq_ok ht.isBuilt.isGrown h
  have hold (r : Resource) (hr : r ∈ t.resources) : t'.Origin d ps r :=
    (ht.origin r hr).grow ht.isBuilt.isGrown hgrows hr
  refine ⟨⟨hbuilt, fun r hr => ?_⟩, hgrows⟩
  rcases (insert_extends ht.isBuilt.isGrown h).mem_or hr with hr' | ⟨hmade, hne⟩
  · exact hold r hr'
  cases hget : t.get? r.address with
  | none => exact hnew r hget hne hmade
  | some s =>
    -- the address was taken, and so by the resource itself
    obtain rfl : s = r :=
      Option.some.inj ((hgrows.get? hget).symm.trans (hbuilt.isGrown.unique r hr))
    exact hold s (mem_of_get? hget)

/-- What a call makes has its link, or none. -/
theorem Made.isFound (h : Made project segments kind link r) (hlink : link.IsFound) :
    r.link.IsFound := by
  obtain ⟨-, more, -, hmade⟩ := h
  split_ifs at hmade
  · rw [hmade.2]
    exact hlink
  · rw [hmade.2]
    exact ⟨rfl, trivial⟩

/-- **What is below something that does not go up** does not go up either, if it is an
entry of a directory. -/
theorem IsSurveyed.insert_entry (ht : t.IsSurveyed d ps) (hbase : (t.get? ⟨project, base⟩).isSome)
    (hup : t.goesUp ⟨project, base⟩ = false) (hmore : ∀ s ∈ more, IsSegment s ∧ s ≠ "..")
    (hlink : link.IsFound) (h : t.insert project (base ++ more) kind link = .ok t') :
    t'.IsSurveyed d ps ∧ t.Grows t' := by
  have hgrown := ht.isBuilt.isGrown
  obtain ⟨hgrows, -⟩ := insert_eq_ok hgrown h
  have hup' : t'.goesUp ⟨project, base⟩ = false := (hgrows.goesUp_eq hgrown hbase).trans hup
  have hsegments : ∀ s ∈ base ++ more, IsSegment s :=
    List.forall_mem_append.2 ⟨ht.isBuilt.isSegment_of_isSome hbase, fun s hs => (hmore s hs).1⟩
  refine ht.insert hsegments h fun r hfree _ hmade => ?_
  have hfound := hmade.isFound hlink
  obtain ⟨rfl, rest, hsplit, -⟩ := hmade
  have hnot : ¬ (t.get? r.address).isSome := by simp [hfree]
  -- all of the base is there, so what is new has names behind it
  rcases List.append_eq_append_iff.1 hsplit.symm with ⟨back, hback, -⟩ | ⟨front, hfront, hrest⟩
  · rw [hback] at hbase
    have hthere : (t.get? r.address).isSome := hgrown.isSome_of_append hbase
    exact absurd hthere hnot
  rcases List.eq_nil_or_concat' front with rfl | ⟨front, name, rfl⟩
  · rw [List.append_nil] at hfront
    rw [← hfront] at hbase
    exact absurd hbase hnot
  · rw [hrest] at hmore
    have hname : name ≠ ".." := (hmore name (by simp)).2
    have hnames : ".." ∉ front := fun hmem => (hmore ".." (by simp [hmem])).2 rfl
    have habove : t'.goesUp ⟨r.address.project, base ++ front⟩ = false := by
      rw [← Bool.not_eq_true] at hup' ⊢
      exact fun hfar => hup' (goesUp_of_append hnames hfar)
    have haddress : r.address = Address.child ⟨r.address.project, base ++ front⟩ name := by
      rw [Address.child, List.append_assoc, ← hfront]
    exact .entry haddress hname habove hfound

/-- **A call for a configured link** adds what the link places, which does not go up, and
plain folders on the way to it. -/
theorem IsSurveyed.insert_linked (ht : t.IsSurveyed d ps)
    (hplaces : Places d ps ⟨project, segments⟩)
    (hsegments : ∀ s ∈ segments, IsSegment s) (habs : target.isAbsolute = true)
    (h : t.insert project segments kind (.linked target) = .ok t') :
    t'.IsSurveyed d ps ∧ t.Grows t' ∧ (t'.get? ⟨project, segments⟩).isSome ∧
      t'.goesUp ⟨project, segments⟩ = false := by
  obtain ⟨-, -, above, name, parent, link, -, hsame, -, hget, -⟩ :=
    insert_eq_ok ht.isBuilt.isGrown h
  have hlinked : link.isLinked = true := by
    rcases Link.same_cases hsame with rfl | ⟨p, q, -, rfl, -⟩ | ⟨p, q, present, -, -, hfalse⟩
    · rfl
    · rfl
    · cases hfalse
  obtain ⟨hsurveyed, hgrows⟩ := ht.insert hsegments h fun r _ hne hmade => by
    obtain ⟨rfl, more, hsplit, hmade⟩ := hmade
    rw [hsplit] at hplaces
    split_ifs at hmade with hmore
    · rw [hmore, List.append_nil] at hplaces
      exact .link hne hplaces hmade.2 habs
    · exact .way hne hmore hplaces hmade.1 hmade.2
  exact ⟨hsurveyed, hgrows, Option.isSome_of_eq_some hget, goesUp_of_linked hget hlinked⟩

/-- A call for a project adds nothing but the project. -/
theorem IsSurveyed.addProject (ht : t.IsSurveyed d ps) {location : Path}
    (habs : location.isAbsolute = true) (h : t.addProject name location = .ok t') :
    t'.IsSurveyed d ps ∧ t.Grows t' ∧ (t'.get? (.ofProject name)).isSome := by
  have hcall : Call.IsSpelled (.project name location) := trivial
  have hbuilt : t'.IsBuilt := ht.isBuilt.apply hcall h
  obtain ⟨hgrows, -, hget, -⟩ := addProject_eq_ok ht.isBuilt.isGrown h
  refine ⟨⟨hbuilt, fun r hr => ?_⟩, hgrows, Option.isSome_of_eq_some hget⟩
  unfold Tree.addProject at h
  split_ifs at h
  cases h
  rcases List.mem_append.1 hr with hr | hr
  · exact (ht.origin r hr).grow ht.isBuilt.isGrown hgrows hr
  · obtain ⟨names, -, hnames⟩ := Path.location_eq_ofNames habs
    rw [List.mem_singleton.1 hr]
    exact .project rfl rfl (congrArg some hnames)

end Tree

namespace Survey

open BuildMarkers.Tree

variable {steps : List Step} {l : Settings.LinkedResource} {links : List Settings.LinkedResource}

/-! ## What the steps of a survey ask for -/

theorem isFound_of_finding? {f : Finding} (h : finding? d place = some f) : f.link.IsFound := by
  unfold finding? at h
  cases hnode : d.node? place with
  | none => simp [hnode] at h
  | some node =>
    cases node with
    | file data =>
      simp only [hnode, Option.some.injEq] at h
      exact h ▸ ⟨rfl, trivial⟩
    | directory =>
      simp only [hnode, Option.some.injEq] at h
      exact h ▸ ⟨rfl, trivial⟩
    | link target =>
      simp only [hnode] at h
      cases hreal : d.canonicalize (pathOf place) with
      | error fault =>
        simp only [hreal, Option.some.injEq] at h
        exact h ▸ ⟨rfl, nofun⟩
      | ok real =>
        simp only [hreal] at h
        split_ifs at h <;> simp only [Option.some.injEq] at h <;>
          exact h ▸ ⟨rfl, fun _ => Route.isAbsolute_toPath real⟩

/-- The step adds nothing but entries below the base, and none that is called `..`. -/
def Step.IsEntry (project : String) (base : List String) : Step → Prop
  | .call (.resource owner segments _ link) =>
    owner = project ∧
      (∃ more, segments = base ++ more ∧ ∀ s ∈ more, IsSegment s ∧ s ≠ "..") ∧ link.IsFound
  | .call (.project _ _) => False
  | .warning _ => True
  | .failure _ => False

/-- **The steps for a directory add entries below it**, however deep it is. -/
theorem isEntry_of_mem_whole (hd : d.IsSound) :
    ∀ step ∈ whole d project base place, step.IsEntry project base := by
  refine forall_mem_directory hd (fun _ => trivial) (fun segments n text
    (hsegments : ∃ more, segments = base ++ more ∧ ∀ s ∈ more, IsSegment s ∧ s ≠ "..")
      hn htext => ?_)
    ⟨[], (List.append_nil base).symm, by simp⟩
  obtain ⟨more, rfl, hmore⟩ := hsegments
  have hother : text ≠ ".." := by
    rintro rfl
    cases Component.ofSegment_of_text? hn.toIsPlain htext
  have hbehind : ∃ more', base ++ more ++ [text] = base ++ more' ∧
      ∀ s ∈ more', IsSegment s ∧ s ≠ ".." :=
    ⟨more ++ [text], List.append_assoc .., forall_mem_concat.2
      ⟨hmore, isSegment_of_text? hn.toIsPlain htext, hother⟩⟩
  exact ⟨hbehind, fun _ _ hf => ⟨rfl, hbehind, isFound_of_finding? hf⟩⟩

/-- The steps for a configured link whose target is there: what the link places, and
entries below that. -/
theorem linked_of_reaches (hd : d.IsSound) (hto : d.canonicalize l.target = .ok place) :
    ∃ kind rest, linked d (whole d project) project l =
      .call (.resource project (segmentsOf l.path) kind (.linked (pathOf place))) :: rest ∧
        ∀ step ∈ rest, step.IsEntry project (segmentsOf l.path) := by
  simp only [linked, hto]
  split_ifs with hdirectory
  · exact ⟨_, _, rfl, isEntry_of_mem_whole hd⟩
  · exact ⟨_, _, rfl, by simp⟩

/-! ## What a survey builds -/

/-- Entries below something that does not go up keep the tree surveyed. -/
theorem builds_of_isEntry (ht : t.IsSurveyed d ps) (hbase : (t.get? ⟨project, base⟩).isSome)
    (hup : t.goesUp ⟨project, base⟩ = false) (hsteps : ∀ step ∈ steps, step.IsEntry project base)
    (h : Builds t steps t') : t'.IsSurveyed d ps ∧ t.Grows t' := by
  induction steps generalizing t with
  | nil =>
    obtain rfl := builds_nil.1 h
    exact ⟨ht, .refl t⟩
  | cons step steps ih =>
    obtain ⟨hstep, hrest⟩ := List.forall_mem_cons.1 hsteps
    cases step with
    | warning text => exact ih ht hbase hup hrest h
    | failure error => exact hstep.elim
    | call call =>
      obtain ⟨u, hu, hbuilds⟩ := builds_call.1 h
      cases call with
      | project name location => exact hstep.elim
      | resource owner segments kind link =>
        obtain ⟨rfl, ⟨more, rfl, hmore⟩, hlink⟩ := hstep
        obtain ⟨hsurveyed, hgrows⟩ := ht.insert_entry hbase hup hmore hlink hu
        -- the base is where it was, and does not go up now either
        have hup' := (hgrows.goesUp_eq ht.isBuilt.isGrown hbase).trans hup
        obtain ⟨hsurveyed', hgrows'⟩ := ih hsurveyed (hgrows.isSome hbase) hup' hrest hbuilds
        exact ⟨hsurveyed', hgrows.trans hgrows'⟩

/-- A configured link keeps it surveyed, and places its resource. -/
theorem builds_of_linked (hd : d.IsSound) (ht : t.IsSurveyed d ps) (hp : p ∈ ps) (hl : l ∈ p.links)
    (h : Builds t (linked d (whole d p.name) p.name l) t') :
    t'.IsSurveyed d ps ∧ t.Grows t' ∧
      (Reaches d l → (t'.get? ⟨p.name, segmentsOf l.path⟩).isSome) := by
  cases hto : d.canonicalize l.target with
  | error fault =>
    simp only [linked, hto, builds_warning] at h
    obtain rfl := builds_nil.1 h
    refine ⟨ht, .refl t, ?_⟩
    rintro ⟨place, hplace⟩
    rw [hto] at hplace
    cases hplace
  | ok place =>
    obtain ⟨kind, rest, hsteps, hrest⟩ := linked_of_reaches hd hto
    rw [hsteps] at h
    obtain ⟨u, hu, h⟩ := builds_call.1 h
    have hplaces : Places d ps ⟨p.name, segmentsOf l.path⟩ := ⟨p, hp, l, hl, ⟨place, hto⟩, rfl⟩
    obtain ⟨hsurveyed, hgrows, hthere, hup⟩ :=
      ht.insert_linked hplaces (fun _ => isSegment_of_mem_segmentsOf)
        (Route.isAbsolute_toPath place) hu
    obtain ⟨hsurveyed', hgrows'⟩ := builds_of_isEntry hsurveyed hthere hup hrest h
    exact ⟨hsurveyed', hgrows.trans hgrows', fun _ => hgrows'.isSome hthere⟩

theorem builds_of_links (hd : d.IsSound) (ht : t.IsSurveyed d ps) (hp : p ∈ ps)
    (hlinks : ∀ l ∈ links, l ∈ p.links)
    (h : Builds t (links.flatMap (linked d (whole d p.name) p.name)) t') :
    t'.IsSurveyed d ps ∧ t.Grows t' ∧
      ∀ l ∈ links, Reaches d l → (t'.get? ⟨p.name, segmentsOf l.path⟩).isSome := by
  induction links generalizing t with
  | nil =>
    obtain rfl := builds_nil.1 h
    exact ⟨ht, .refl t, by simp⟩
  | cons l links ih =>
    obtain ⟨hl, hlinks⟩ := List.forall_mem_cons.1 hlinks
    rw [List.flatMap_cons, builds_append] at h
    obtain ⟨u, hu, h⟩ := h
    obtain ⟨hsurveyed, hgrows, hthere⟩ := builds_of_linked hd ht hp hl hu
    obtain ⟨hsurveyed', hgrows', hrest⟩ := ih hsurveyed hlinks h
    refine ⟨hsurveyed', hgrows.trans hgrows', List.forall_mem_cons.2 ⟨?_, hrest⟩⟩
    exact fun hreaches => hgrows'.isSome (hthere hreaches)

/-- The steps for a project keep the tree surveyed, and all its links place their
resources. -/
theorem surveyed_of_project (hd : d.IsSound) (ht : t.IsSurveyed d ps) (hp : p ∈ ps)
    (h : Builds t (Survey.project d (whole d) p) t') :
    t'.IsSurveyed d ps ∧ t.Grows t' ∧
      ∀ l ∈ p.links, Reaches d l → (t'.get? ⟨p.name, segmentsOf l.path⟩).isSome := by
  obtain ⟨place, u, -, hu, h⟩ := of_builds_project h
  obtain ⟨v, hv, h⟩ := builds_append.1 h
  obtain ⟨hsurveyed, hgrows, hthere⟩ := ht.addProject (Route.isAbsolute_toPath place) hu
  obtain ⟨hsurveyed', hgrows'⟩ :=
    builds_of_isEntry hsurveyed hthere goesUp_ofProject (isEntry_of_mem_whole hd) hv
  obtain ⟨hsurveyed'', hgrows'', hlinks⟩ := builds_of_links hd hsurveyed' hp (fun _ => id) h
  exact ⟨hsurveyed'', (hgrows.trans hgrows').trans hgrows'', hlinks⟩

theorem surveyed_of_projects (hd : d.IsSound) {qs : List Settings.Project} (ht : t.IsSurveyed d ps)
    (hqs : ∀ q ∈ qs, q ∈ ps) (h : Builds t (projects d qs) t') :
    t'.IsSurveyed d ps ∧ t.Grows t' ∧ ∀ a, Places d qs a → (t'.get? a).isSome := by
  induction qs generalizing t with
  | nil =>
    obtain rfl := builds_nil.1 h
    refine ⟨ht, .refl t, ?_⟩
    rintro a ⟨q, hq, -⟩
    exact absurd hq List.not_mem_nil
  | cons q qs ih =>
    obtain ⟨hq, hqs⟩ := List.forall_mem_cons.1 hqs
    rw [projects, List.flatMap_cons, builds_append] at h
    obtain ⟨u, hu, h⟩ := h
    obtain ⟨hsurveyed, hgrows, hlinks⟩ := surveyed_of_project hd ht hq hu
    obtain ⟨hsurveyed', hgrows', hrest⟩ := ih hsurveyed hqs h
    refine ⟨hsurveyed', hgrows.trans hgrows', ?_⟩
    rintro a ⟨p, hp, l, hl, hreaches, rfl⟩
    rcases List.mem_cons.1 hp with rfl | hp
    · exact hgrows'.isSome (hlinks l hl hreaches)
    · exact hrest _ ⟨p, hp, l, hl, hreaches, rfl⟩

/-- **A scanned tree is surveyed.** -/
theorem isSurveyed_of_scan (hd : d.IsSound) (h : (scan d ps).2 = .ok t) : t.IsSurveyed d ps :=
  (surveyed_of_projects hd isSurveyed_empty (fun _ => id) h).1

/-- What the configured links place is there. -/
theorem isSome_of_places (hd : d.IsSound) (h : (scan d ps).2 = .ok t) (ha : Places d ps a) :
    (t.get? a).isSome :=
  (surveyed_of_projects hd isSurveyed_empty (fun _ => id) h).2.2 a ha

end Survey

namespace Tree

/-- No resource is called `..`, and wherever one is found, its spelling is normalized. -/
def IsNormal (t : Tree) : Prop :=
  ∀ r ∈ t.resources, r.address.name ≠ ".." ∧ ∀ l ∈ r.spellings, l.normalize = l

/-- **A spelling leads back to its resource** after normalizing just if the resource does
not go up. -/
theorem Follows.mem_foundAt_iff {l : Route} (h : t.Follows r.address l) (hr : r ∈ t.resources)
    (hspelling : l ∈ r.spellings) (hfollows : ∀ s ∈ r.spellings, t.Follows r.address s) :
    r ∈ t.foundAt l.normalize ↔ t.goesUp r.address = false := by
  constructor
  · intro hfound
    obtain ⟨-, hnormal⟩ := List.mem_filter.1 hfound
    rw [← Bool.not_eq_true, ← (hfollows _ (List.contains_iff_mem.1 hnormal)).parent_mem_iff]
    exact Route.parent_notMem_normalize h.isAbsolute
  · intro hup
    rw [h.normalize_eq_iff.2 hup]
    exact List.mem_filter.2 ⟨hr, List.contains_iff_mem.2 hspelling⟩

theorem IsSurveyed.follows (ht : t.IsSurveyed d ps) (hr : r ∈ t.resources) :
    ∀ l ∈ r.spellings, t.Follows r.address l := by
  have hget := ht.isBuilt.isGrown.unique
  intro l hl
  refine ht.isBuilt.follows (fun s hs => (ht.origin s hs).isAnchored) (fun s hs hup => ?_)
    (hget r hr) hl
  exact ((ht.origin s hs).of_goesUp (hget s hs) hup).2.1

/-- What does not go up is found at each of its spellings, or something that has the same
spelling and comes before it. -/
theorem Follows.exists_lookup {l : Route} (h : t.Follows r.address l)
    (hup : t.goesUp r.address = false)
    (hfound : r ∈ t.foundAt l.normalize) (D : Disk) (preferred : String) :
    (r.isFile = true → ∃ f ∈ t.foundAt l, f.isFile = true ∧
      t.fileAtLocation D preferred l = some f.address) ∧
    (r.isContainer = true → ∃ c ∈ t.foundAt l, c.isContainer = true ∧
      t.containerAtLocation D preferred l = some c.address) := by
  have hnormal : l.normalize = l := h.normalize_eq_iff.2 hup
  constructor
  · intro hfile
    obtain ⟨f, hf, hlookup⟩ := atLocation_of_foundAt hfound hfile D preferred
    exact ⟨f, hnormal ▸ hf, hlookup⟩
  · intro hcontainer
    obtain ⟨c, hc, hlookup⟩ := atLocation_of_foundAt hfound hcontainer D preferred
    exact ⟨c, hnormal ▸ hc, hlookup⟩

end Tree

namespace Survey

open BuildMarkers.Tree

/-- In a tree without parent references no project is called `..`, and no link that
places something has a path with such a segment: a folder with this name would be on
the way. -/
theorem up_notMem_of_isNormal (hd : d.IsSound) (h : (scan d ps).2 = .ok t) (hnormal : t.IsNormal) :
    (∀ p ∈ ps, p.name ≠ "..") ∧ ∀ a, Places d ps a → ".." ∉ a.segments := by
  have hgrown := (isSurveyed_of_scan hd h).isBuilt.isGrown
  constructor
  · intro p hp hname
    have hthere : (t.get? (.ofProject p.name)).isSome := (isSome_of_scan hd h).2 ⟨p, hp, rfl⟩
    obtain ⟨r, hr⟩ := Option.isSome_iff_exists.1 hthere
    refine (hnormal r (mem_of_get? hr)).1 ?_
    rw [address_of_get? hr, hname]
    rfl
  · intro a ha hmem
    obtain ⟨front, back, hsplit⟩ := List.append_of_mem hmem
    have hthere : (t.get? ⟨a.project, (front ++ [".."]) ++ back⟩).isSome := by
      rw [List.append_assoc, List.singleton_append, ← hsplit]
      exact isSome_of_places hd h ha
    obtain ⟨r, hr⟩ := Option.isSome_iff_exists.1 (hgrown.isSome_of_append hthere)
    refine (hnormal r (mem_of_get? hr)).1 ?_
    rw [address_of_get? hr]
    exact Address.name_child ⟨a.project, front⟩ ".."

/-- And without such a project and such a link the tree has none. -/
theorem isNormal_of_up_notMem (hd : d.IsSound) (h : (scan d ps).2 = .ok t)
    (hprojects : ∀ p ∈ ps, p.name ≠ "..")
    (hlinks : ∀ a, Places d ps a → ".." ∉ a.segments) : t.IsNormal := by
  have ht : t.IsSurveyed d ps := isSurveyed_of_scan hd h
  have hget := ht.isBuilt.isGrown.unique
  intro r hr
  constructor
  · intro hname
    rcases (ht.origin r hr).of_name hname with hroot | ⟨a, ha, hmem⟩
    · have hthere : (t.get? (.ofProject "..")).isSome := by
        rw [← hroot, hget r hr, Option.isSome_some]
      obtain ⟨p, hp, hname⟩ := (isSome_of_scan hd h).1 hthere
      exact hprojects p hp hname
    · exact hlinks a ha hmem
  · intro l hl
    rw [(ht.follows hr l hl).normalize_eq_iff, ← Bool.not_eq_true]
    intro hup
    obtain ⟨-, -, more, -, hplaces⟩ := (ht.origin r hr).of_goesUp (hget r hr) hup
    exact hlinks _ hplaces (List.mem_append_left _ (mem_segments_of_goesUp hup))

/-- **A scanned tree has no parent references** just if no project is called `..` and no
segment on the path of a link that places something. Where there is such a segment, the
resources that go up are plain folders on the way to what the link places. They are the
only ones with spellings that are not normalized, and no lookup finds them there; one
for any other resource finds what lies at its spelling. -/
theorem foundAt_of_scan (hd : d.IsSound) (h : (scan d ps).2 = .ok t) :
    (t.IsNormal ↔ (∀ p ∈ ps, p.name ≠ "..") ∧ ∀ a, Places d ps a → ".." ∉ a.segments) ∧
    ∀ r ∈ t.resources,
      (t.goesUp r.address = true → r.kind = .folder ∧ r.link = .none ∧
        ∃ more ≠ [], Places d ps ⟨r.address.project, r.address.segments ++ more⟩) ∧
      ∀ l ∈ r.spellings,
        (l.normalize = l ↔ t.goesUp r.address = false) ∧
        (r ∈ t.foundAt l.normalize ↔ t.goesUp r.address = false) ∧
        (t.goesUp r.address = false → ∀ (D : Disk) (preferred : String),
          (r.isFile = true → ∃ f ∈ t.foundAt l, f.isFile = true ∧
            t.fileAtLocation D preferred l = some f.address) ∧
          (r.isContainer = true → ∃ c ∈ t.foundAt l, c.isContainer = true ∧
            t.containerAtLocation D preferred l = some c.address)) := by
  have ht : t.IsSurveyed d ps := isSurveyed_of_scan hd h
  refine ⟨⟨up_notMem_of_isNormal hd h,
    fun hnames => isNormal_of_up_notMem hd h hnames.1 hnames.2⟩, ?_⟩
  intro r hr
  refine ⟨(ht.origin r hr).of_goesUp (ht.isBuilt.isGrown.unique r hr), ?_⟩
  intro l hl
  have hfollows := ht.follows hr l hl
  have hfound := hfollows.mem_foundAt_iff hr hl (ht.follows hr)
  exact ⟨hfollows.normalize_eq_iff, hfound, fun hup D preferred =>
    hfollows.exists_lookup hup (hfound.2 hup) D preferred⟩

end Survey

/-- A disk with a project and a file beside it. -/
def Disk.beside : Disk where
  entries := [
    ([.ofString "P"], .directory),
    ([.ofString "P", .ofString "main.c"], .file { content := [] }),
    ([.ofString "o"], .directory),
    ([.ofString "o", .ofString "x.c"], .file { content := [] })]
  workingDirectory := []

namespace Survey

/-- The project, and a link to the file with this path. -/
def besideSettings (path : String) : Settings :=
  { Settings.default with projects := [⟨"P", .ofString "/P", [⟨path, .ofString "/o/x.c"⟩]⟩] }

/-- What lies in the project. -/
def resourcesOfP : List Resource := [
  .root "P" (.ofNames [.ofString "P"]),
  ⟨⟨"P", ["main.c"]⟩, .file, .none, some (.ofNames [.ofString "P", .ofString "main.c"]), []⟩]

/-- What the link places at the segments. -/
def fileBeside (segments : List String) : Resource :=
  ⟨⟨"P", segments⟩, .file, .linked (.ofString "/o/x.c"),
    some (.ofNames [.ofString "o", .ofString "x.c"]), []⟩

/-- A folder of the project that is made for the link, with the location as it is joined. -/
def folderFor (segments : List String) : Resource :=
  ⟨⟨"P", segments⟩, .folder, .none,
    some (Route.ofNames [.ofString "P"] ++ segments.map .ofSegment), []⟩

/-- Without a segment `..` on the path of the link, nothing in the tree goes up. -/
theorem foundAt_of_scan_beside :
    Disk.beside.IsSound ∧
      (scan .beside (besideSettings "lib/x.c").projects).2 =
        .ok ⟨resourcesOfP ++ [folderFor ["lib"], fileBeside ["lib", "x.c"]]⟩ ∧
      Tree.IsNormal ⟨resourcesOfP ++ [folderFor ["lib"], fileBeside ["lib", "x.c"]]⟩ := by
  have hd : Disk.beside.IsSound := by decide
  have hscan : (scan .beside (besideSettings "lib/x.c").projects).2 =
      .ok ⟨resourcesOfP ++ [folderFor ["lib"], fileBeside ["lib", "x.c"]]⟩ := by decide +kernel
  refine ⟨hd, hscan, (foundAt_of_scan hd hscan).1.2 ⟨by decide, ?_⟩⟩
  rintro a ⟨p, hp, l, hl, -, rfl⟩
  obtain rfl := List.mem_singleton.1 hp
  obtain rfl := List.mem_singleton.1 hl
  decide

/-- With one, the settings are valid and the scan succeeds, and there is a folder `..`
that is not found where it lies. -/
theorem foundAt_of_scan_upward :
    (besideSettings "lib/../x.c").validate = .ok () ∧ Disk.beside.IsSound ∧
      ∃ t, (scan .beside (besideSettings "lib/../x.c").projects).2 = .ok t ∧
        ∃ r ∈ t.resources, r.address.name = ".." ∧
          ∃ l, r.location = some l ∧ l.normalize ≠ l ∧ r ∉ t.foundAt l.normalize := by
  have hscan : (scan .beside (besideSettings "lib/../x.c").projects).2 =
      .ok ⟨resourcesOfP ++
        [folderFor ["lib"], folderFor ["lib", ".."],
          fileBeside ["lib", "..", "x.c"]]⟩ := by decide +kernel
  refine ⟨by decide, by decide, _, hscan, folderFor ["lib", ".."], by simp, rfl, _, rfl, ?_, ?_⟩
  · decide
  · decide

end Survey

end BuildMarkers
