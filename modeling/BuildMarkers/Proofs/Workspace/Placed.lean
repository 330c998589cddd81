import BuildMarkers.Proofs.Settings.LinkPaths
import BuildMarkers.Proofs.Workspace.Alike
import BuildMarkers.Proofs.Workspace.Refused
import BuildMarkers.Proofs.Workspace.Surveyed
/-!
# What links place

A scan carries out the calls of a survey, and no call of it lacks a segment but that of a
link whose path has none (`isNamed_or_of_mem_projects`). Where a call is refused since a link
has placed something at its address, a link listed before has the same segments
(`StopsAt.exists_link`). The links of valid settings can come to that only by a piece that the
segments leave out: tidy ones have segments, and different ones (`link_paths`).
-/

namespace BuildMarkers

variable {d : Disk} {t u : Tree} {project name path : String} {segments : List String}
  {place : Place}
  {p : Settings.Project} {ps : List Settings.Project} {l m : Settings.LinkedResource}
  {before : List Settings.LinkedResource} {error : TreeError}

namespace Survey

open BuildMarkers.Tree

/-! ## Calls without a segment -/

/-- The step does not call for a resource that has no segment, nor is it a failed call. -/
def Step.IsNamed : Step → Prop
  | .call (.resource _ segments _ _) => segments ≠ []
  | .call (.project _ _) => True
  | .warning _ => True
  | .failure reason => ∀ e, reason ≠ .tree e

theorem isNamed_of_mem_whole (hd : d.IsSound) :
    ∀ step ∈ whole d project segments place, step.IsNamed :=
  forall_mem_directory hd (fun _ => trivial)
    (fun segments n text (_ : True) _ _ => ⟨trivial, fun _ _ _ => by simp [Step.IsNamed]⟩) trivial

/-- **Only the call for what a link places may lack a segment.** -/
theorem isNamed_or_of_mem_projects (hd : d.IsSound) : ∀ step ∈ projects d ps, step.IsNamed ∨
    ∃ p ∈ ps, ∃ l ∈ p.links, Reaches d l ∧
      ∃ kind link, step = .call (.resource p.name (segmentsOf l.path) kind link) := by
  intro step hstep
  obtain ⟨p, hp, hstep⟩ := List.mem_flatMap.1 hstep
  rcases project_cases d (whole d) p with ⟨root, -, hsteps⟩ | ⟨reason, hreason, hsteps⟩
  · have hproject : step ∈ Step.call (.project p.name (pathOf root)) :: _ := hsteps p.links ▸ hstep
    rcases List.mem_cons.1 hproject with rfl | hproject
    · exact .inl trivial
    rcases List.mem_append.1 hproject with hentry | hplaced
    · exact .inl (isNamed_of_mem_whole hd step hentry)
    obtain ⟨l, hl, hlinked⟩ := List.mem_flatMap.1 hplaced
    cases hto : d.canonicalize l.target with
    | error fault =>
      simp only [linked, hto, List.mem_singleton] at hlinked
      exact .inl (by simp [hlinked, Step.IsNamed])
    | ok place =>
      simp only [linked, hto] at hlinked
      split_ifs at hlinked with hdirectory
      · rcases List.mem_cons.1 hlinked with rfl | hbelow
        · exact .inr ⟨p, hp, l, hl, ⟨place, hto⟩, _, _, rfl⟩
        · exact .inl (isNamed_of_mem_whole hd step hbelow)
      · rw [List.mem_singleton] at hlinked
        exact .inr ⟨p, hp, l, hl, ⟨place, hto⟩, _, _, hlinked⟩
  · obtain rfl : step = .failure reason := List.mem_singleton.1 (hsteps p.links ▸ hstep)
    exact .inl hreason

/-- **A path without a segment is that of a link** whose target is there. -/
theorem exists_link_of_emptyPath (hd : d.IsSound)
    (h : (scan d ps).2 = .error (.tree (.emptyPath name))) :
    ∃ p ∈ ps, p.name = name ∧ ∃ l ∈ p.links, Reaches d l ∧ segmentsOf l.path = [] := by
  obtain ⟨done, step, rest, u, hsteps, hbuilds, hfails⟩ := build_eq_error_iff.1 h
  obtain ⟨-, hgrown⟩ := grows_of_builds isGrown_empty hbuilds
  have hstep : step ∈ projects d ps := by simp [hsteps]
  have hnamed := isNamed_or_of_mem_projects hd step hstep
  cases step with
  | warning text => exact hfails.elim
  | failure reason =>
    obtain ⟨p, hp, l, hl, hreaches, kind, link, heq⟩ :=
      hnamed.resolve_left fun hnot => hnot _ hfails
    cases heq
  | call call =>
    obtain ⟨e, happly, he⟩ := hfails
    obtain rfl := ScanError.tree.inj he
    cases call with
    | project owner location =>
      simp only [apply, addProject] at happly
      split_ifs at happly
      cases happly
    | resource owner segments kind link =>
      cases hgrown.refuses happly with
      | emptyPath hnil =>
        obtain ⟨p, hp, l, hl, hreaches, kind', link', heq⟩ :=
          hnamed.resolve_left fun hnot => hnot hnil
        simp only [Step.call.injEq, Call.resource.injEq] at heq
        exact ⟨p, hp, heq.1.symm, l, hl, hreaches, heq.2.1.symm.trans hnil⟩

/-! ## Where a link is refused -/

/-- The scan gets as far as the link `l` of the project, with the tree `t` from all that is before
it, and the call for what the link places is refused. -/
structure StopsAt (d : Disk) (ps : List Settings.Project) (p : Settings.Project)
    (before : List Settings.LinkedResource) (l : Settings.LinkedResource) (t : Tree)
    (error : TreeError) : Prop where
  /-- The projects and links before are carried out. -/
  builds : ∃ front back after, ps = front ++ p :: back ∧ p.links = before ++ l :: after ∧
    Builds .empty (projects d (front ++ [{ p with links := before }])) t
  /-- The call of the link is not. -/
  refused : ∃ call rest, linked d (whole d p.name) p.name l = .call call :: rest ∧
    t.apply call = .error error

/-- Behind some of its links the steps for a project are those for the rest. -/
theorem project_append {walk : String → List String → Place → List Step}
    {more : List Settings.LinkedResource} (hlinks : p.links = before ++ more)
    (hbuilds : Builds t (Survey.project d walk { p with links := before }) u) :
    Survey.project d walk p = Survey.project d walk { p with links := before } ++
      more.flatMap (linked d (walk p.name) p.name) := by
  rcases project_cases d walk p with ⟨root, -, hsteps⟩ | ⟨reason, -, hsteps⟩
  · calc Survey.project d walk p
        = Survey.project d walk { p with links := before ++ more } := by rw [← hlinks]
      _ = _ := by rw [hsteps, hsteps, List.flatMap_append, List.cons_append, List.append_assoc]
  · exact absurd (hsteps before ▸ hbuilds) not_builds_failure

/-- **Then the scan fails for that reason.** -/
theorem StopsAt.scan_eq_error (h : StopsAt d ps p before l t error) :
    (scan d ps).2 = .error (.tree error) := by
  obtain ⟨front, back, after, rfl, hlinks, hbuilds⟩ := h.builds
  obtain ⟨call, rest, hlinked, hcall⟩ := h.refused
  have hdone : projects d (front ++ [{ p with links := before }]) =
      projects d front ++ Survey.project d (whole d) { p with links := before } := by
    simp [projects]
  obtain ⟨u, -, hproject⟩ := builds_append.1 (hdone ▸ hbuilds)
  refine build_eq_error_iff.2 ⟨_, .call call,
    rest ++ after.flatMap (linked d (whole d p.name) p.name) ++
    projects d back, t, ?_, hbuilds, error, hcall, rfl⟩
  rw [hdone, projects, List.flatMap_append, List.flatMap_cons, project_append hlinks hproject,
    List.flatMap_cons, hlinked]
  simp [projects]

/-- **What a link has placed in the way of another is on the same path**, and listed before. -/
theorem StopsAt.exists_link (hd : d.IsSound) (hnames : (ps.map Settings.Project.name).Nodup)
    (h : StopsAt d ps p before l t (.conflict path)) :
    ∃ r, t.get? ⟨p.name, segmentsOf l.path⟩ = some r ∧ r.address.fullPath = path ∧
      (r.link.isLinked = true → ∃ m ∈ before, segmentsOf m.path = segmentsOf l.path) := by
  obtain ⟨front, back, after, rfl, hlinks, hbuilds⟩ := h.builds
  obtain ⟨call, rest, hlinked, hcall⟩ := h.refused
  have hsurveyed := (surveyed_of_projects hd isSurveyed_empty (fun _ => id) hbuilds).1
  cases hto : d.canonicalize l.target with
  | error fault => simp [linked, hto] at hlinked
  | ok place =>
    obtain ⟨kind, more, hsteps, -⟩ : ∃ kind more, linked d (whole d p.name) p.name l =
        .call (.resource p.name (segmentsOf l.path) kind (.linked (pathOf place))) :: more ∧ _ :=
      linked_of_reaches hd hto
    obtain ⟨rfl, -⟩ :
        Call.resource p.name (segmentsOf l.path) kind (.linked (pathOf place)) = call ∧
          more = rest := by
      simpa using hsteps.symm.trans hlinked
    cases hsurveyed.isBuilt.isGrown.refuses hcall with
    | @conflict r hr =>
      refine ⟨r, hr, rfl, fun hplaced => ?_⟩
      have haddress := address_of_get? hr
      cases hsurveyed.origin r (mem_of_get? hr) with
      | project _ hlink _ => simp [hlink, Link.isLinked] at hplaced
      | way _ _ _ _ hlink => simp [hlink, Link.isLinked] at hplaced
      | entry _ _ _ hfound => simp [hfound.1] at hplaced
      | link _ hplaces _ _ =>
        obtain ⟨q, hq, m, hm, -, hat⟩ := hplaces
        rw [haddress, Address.mk.injEq] at hat
        -- another project has another name, so the link is one of those before
        have hown : q = { p with links := before } := by
          rcases List.mem_append.1 hq with hq | hq
          · rw [List.map_append, List.nodup_append] at hnames
            exact absurd hat.1.symm (hnames.2.2 _ (List.mem_map_of_mem hq) _ (by simp))
          · exact List.mem_singleton.1 hq
        subst hown
        exact ⟨m, hm, hat.2.symm⟩

/-! ## What is placed in the end -/

/-- **A link whose target is there has placed it** where its path leads, below the project. -/
theorem exists_placed (hd : d.IsSound) (h : (scan d ps).2 = .ok t) (hp : p ∈ ps) (hl : l ∈ p.links)
    (hto : d.canonicalize l.target = .ok place) : segmentsOf l.path ≠ [] ∧
      ∃ r, t.get? ⟨p.name, segmentsOf l.path⟩ = some r ∧
        r.link.same (.linked (pathOf place)) = true := by
  obtain ⟨kind, rest, hlinked, -⟩ : ∃ kind rest, linked d (whole d p.name) p.name l =
      .call (.resource p.name (segmentsOf l.path) kind (.linked (pathOf place))) :: rest ∧ _ :=
    linked_of_reaches hd hto
  have hstep : .call (.resource p.name (segmentsOf l.path) kind (.linked (pathOf place))) ∈
      Survey.project d (whole d) p := by
    rcases project_cases d (whole d) p with ⟨root, -, hsteps⟩ | ⟨reason, -, hsteps⟩
    · refine (hsteps p.links).symm ▸ List.mem_cons_of_mem _ (List.mem_append_right _ ?_)
      exact List.mem_flatMap.2 ⟨l, hl, hlinked ▸ List.mem_cons_self⟩
    · have hfailure : .failure reason ∈ projects d ps :=
        List.mem_flatMap.2 ⟨p, hp, (hsteps p.links).symm ▸ List.mem_cons_self⟩
      exact absurd hfailure (failure_notMem_of_builds h)
  exact asked_of_builds isGrown_empty h (List.mem_flatMap.2 ⟨p, hp, hstep⟩)

/-- So links to one address have one target. -/
theorem eq_of_segmentsOf_eq {place' : Place} (hd : d.IsSound) (h : (scan d ps).2 = .ok t)
    (hp : p ∈ ps) (habs : p.IsAbsolute) (hl : l ∈ p.links) (hm : m ∈ p.links)
    (hto : d.canonicalize l.target = .ok place) (hto' : d.canonicalize m.target = .ok place')
    (hpath : segmentsOf l.path = segmentsOf m.path) : place = place' := by
  obtain ⟨-, r, hr, hlink⟩ := exists_placed hd h hp hl hto
  obtain ⟨-, r', hr', hlink'⟩ := exists_placed hd h hp hm hto'
  obtain rfl : r = r' := Option.some.inj ((hpath ▸ hr).symm.trans hr')
  have hroute := Link.same_linked.1 (Link.same_trans (Link.same_symm hlink) hlink')
  have hplain := (Disk.stands_of_canonicalize (habs.2 l hl) hto).isPlain hd
  have hplain' := (Disk.stands_of_canonicalize (habs.2 m hm) hto').isPlain hd
  rw [pathOf, pathOf, Route.route_toPath hplain, Route.route_toPath hplain'] at hroute
  exact Route.ofNames_injective hroute

/-- **Valid settings and a scan agree on tidy link paths**, and part on others only. In valid
settings the tidy links of a project have segments, and different ones. A scan of them fails
for want of a segment only at a link that is not tidy, and where the scan stops at a link
since another one has placed something there, that one has the same segments, and not both
are tidy. If the scan succeeds, each link whose target is there has segments, and links with
the same segments have one target. -/
theorem link_paths {s : Settings} (h : s.validate = .ok ()) :
    (∀ p ∈ s.projects, (∀ l ∈ p.links, l.IsTidy → segmentsOf l.path ≠ []) ∧
      p.links.Pairwise fun l m => l.IsTidy → m.IsTidy → segmentsOf l.path ≠ segmentsOf m.path) ∧
    ∀ d : Disk, d.IsSound →
      (∀ name, (scan d s.projects).2 = .error (.tree (.emptyPath name)) →
        ∃ p ∈ s.projects, p.name = name ∧
          ∃ l ∈ p.links, Reaches d l ∧ segmentsOf l.path = [] ∧ ¬ l.IsTidy) ∧
      (∀ p before l t path, StopsAt d s.projects p before l t (.conflict path) →
        (scan d s.projects).2 = .error (.tree (.conflict path)) ∧
        ∃ r, t.get? ⟨p.name, segmentsOf l.path⟩ = some r ∧ r.address.fullPath = path ∧
          (r.link.isLinked = true →
            ∃ m ∈ before, segmentsOf m.path = segmentsOf l.path ∧ ¬ (m.IsTidy ∧ l.IsTidy))) ∧
      ∀ t, (scan d s.projects).2 = .ok t → ∀ p ∈ s.projects,
        (∀ l ∈ p.links, Reaches d l → segmentsOf l.path ≠ []) ∧
        ∀ l ∈ p.links, ∀ m ∈ p.links, segmentsOf l.path = segmentsOf m.path →
          ∀ place place', d.canonicalize l.target = .ok place →
            d.canonicalize m.target = .ok place' →
            place = place' := by
  have htidy := fun p hp => Settings.segmentsOf_ne_of_validate (p := p) h hp
  refine ⟨htidy, fun d hd => ⟨fun name hscan => ?_, fun p before l t path hstops => ?_,
    fun t hscan p hp => ?_⟩⟩
  · obtain ⟨p, hp, hname, l, hl, hreaches, hnil⟩ := exists_link_of_emptyPath hd hscan
    exact ⟨p, hp, hname, l, hl, hreaches, hnil, fun htidy => htidy.segmentsOf_ne_nil hnil⟩
  · obtain ⟨r, hr, hpath, hplaced⟩ := hstops.exists_link hd (Settings.nodup_of_validate h)
    refine ⟨hstops.scan_eq_error, r, hr, hpath, fun hlinked => ?_⟩
    obtain ⟨m, hm, hsegments⟩ := hplaced hlinked
    refine ⟨m, hm, hsegments, fun ⟨hmtidy, hltidy⟩ => ?_⟩
    obtain ⟨front, back, after, hps, hlinks, -⟩ := hstops.builds
    have hpairwise := (htidy p (by simp [hps])).2
    rw [hlinks, List.pairwise_append] at hpairwise
    exact hpairwise.2.2 m hm l List.mem_cons_self hmtidy hltidy hsegments
  · refine ⟨fun l hl ⟨place, hto⟩ => (exists_placed hd hscan hp hl hto).1, ?_⟩
    intro l hl m hm hpath place place' hto hto'
    exact eq_of_segmentsOf_eq hd hscan hp (Settings.isAbsolute_of_validate h p hp) hl hm
      hto hto' hpath

end Survey

/-- A disk with a project and two files beside it. -/
def Disk.shelf : Disk where
  entries := [
    ([.ofString "P"], .directory),
    ([.ofString "o"], .directory),
    ([.ofString "o", .ofString "x.c"], .file { content := [] }),
    ([.ofString "o", .ofString "y.c"], .file { content := [] })]
  workingDirectory := []

namespace Survey

open BuildMarkers.Tree

/-- A link to the first of the files. -/
def linkToX (path : String) : Settings.LinkedResource := ⟨path, .ofString "/o/x.c"⟩

/-- A link to the second one. -/
def linkToY (path : String) : Settings.LinkedResource := ⟨path, .ofString "/o/y.c"⟩

/-- The project with the links. -/
def shelfProject (links : List Settings.LinkedResource) : Settings.Project :=
  ⟨"P", .ofString "/P", links⟩

/-- The project alone. -/
def shelfSettings (links : List Settings.LinkedResource) : Settings :=
  { Settings.default with projects := [shelfProject links] }

/-- Valid settings may have a link without a segment, and two links with the same
segments. -/
theorem link_paths_untidy :
    Disk.shelf.IsSound ∧
      (shelfSettings [linkToX "."]).validate = .ok () ∧ segmentsOf "." = [] ∧
      (scan .shelf (shelfSettings [linkToX "."]).projects).2 = .error (.tree (.emptyPath "P")) ∧
      (shelfSettings [linkToX "lib/x", linkToY "lib//x"]).validate = .ok () ∧
      segmentsOf "lib/x" = segmentsOf "lib//x" ∧
      (scan .shelf (shelfSettings [linkToX "lib/x", linkToY "lib//x"]).projects).2 =
        .error (.tree (.conflict "/P/lib/x")) := by
  refine ⟨by decide, by decide, by decide, by decide +kernel, by decide, by decide,
    by decide +kernel⟩

/-- What the link to the first file places at the path. -/
def shelvedX : Resource :=
  ⟨⟨"P", ["lib", "x"]⟩, .file, .linked (.ofString "/o/x.c"),
    some (.ofNames [.ofString "o", .ofString "x.c"]), []⟩

/-- The project with this link. -/
def shelfTree : Tree := ⟨[
  .root "P" (.ofNames [.ofString "P"]),
  ⟨⟨"P", ["lib"]⟩, .folder, .none, some (.ofNames [.ofString "P", .ofString "lib"]), []⟩,
  shelvedX]⟩

/-- Tidy links have segments, and different ones. Of the others one has no segment, and two
have the same. -/
theorem link_paths_shelf :
    (segmentsOf "lib/x" ≠ [] ∧ segmentsOf "lib/x" ≠ segmentsOf "/lib/y/") ∧
      (∃ l ∈ [linkToX "."], Reaches .shelf l ∧ segmentsOf l.path = [] ∧ ¬ l.IsTidy) ∧
      ∃ m ∈ [linkToX "lib/x"], segmentsOf m.path = segmentsOf "lib//x" ∧
        ¬ (m.IsTidy ∧ (linkToY "lib//x").IsTidy) := by
  have hd : Disk.shelf.IsSound := by decide
  have htidy : (shelfSettings [linkToX "lib/x", linkToY "/lib/y/"]).validate = .ok () := by decide
  have hdot : (shelfSettings [linkToX "."]).validate = .ok () := by decide
  have hdouble : (shelfSettings [linkToX "lib/x", linkToY "lib//x"]).validate = .ok () := by decide
  have hscan : ∃ t,
      (scan .shelf (shelfSettings [linkToX "lib/x", linkToY "/lib/y/"]).projects).2 = .ok t :=
    ⟨⟨shelfTree.resources ++ [⟨⟨"P", ["lib", "y"]⟩, .file, .linked (.ofString "/o/y.c"),
      some (.ofNames [.ofString "o", .ofString "y.c"]), []⟩]⟩, by decide +kernel⟩
  have hreaches : Reaches .shelf (linkToX "lib/x") := ⟨[.ofString "o", .ofString "x.c"], by decide⟩
  have hempty : (scan .shelf (shelfSettings [linkToX "."]).projects).2 =
      .error (.tree (.emptyPath "P")) := by decide +kernel
  have hstops : StopsAt .shelf (shelfSettings [linkToX "lib/x", linkToY "lib//x"]).projects
      (shelfProject [linkToX "lib/x", linkToY "lib//x"]) [linkToX "lib/x"]
        (linkToY "lib//x") shelfTree
      (.conflict "/P/lib/x") := by
    refine ⟨⟨[], [], [], rfl, rfl, ?_⟩,
      .resource "P" ["lib", "x"] .file (.linked (.ofString "/o/y.c")), [], ?_, ?_⟩
    · have hbuilds : (scan .shelf (shelfSettings [linkToX "lib/x"]).projects).2 =
          .ok shelfTree := by decide +kernel
      exact hbuilds
    · decide
    · decide
  refine ⟨?_, ?_, ?_⟩
  · obtain ⟨hpaths, hdisk⟩ := link_paths htidy
    obtain ⟨t, hscan⟩ := hscan
    have hpairwise := (hpaths _ (List.mem_singleton_self _)).2
    exact ⟨((hdisk _ hd).2.2 t hscan _ (List.mem_singleton_self _)).1 _ List.mem_cons_self hreaches,
      (List.pairwise_cons.1 hpairwise).1 _ List.mem_cons_self (by decide) (by decide)⟩
  · obtain ⟨p, hp, -, hlink⟩ := ((link_paths hdot).2 _ hd).1 "P" hempty
    obtain rfl := List.mem_singleton.1 hp
    exact hlink
  · obtain ⟨-, r, hr, -, hplaced⟩ := ((link_paths hdouble).2 _ hd).2.1 _ _ _ _ _ hstops
    have hx : shelfTree.get? ⟨"P", segmentsOf "lib//x"⟩ = some shelvedX := by decide
    obtain rfl : shelvedX = r := Option.some.inj (hx.symm.trans hr)
    exact hplaced rfl

end Survey

end BuildMarkers
