import BuildMarkers.Proofs.Workspace.Spellings
import BuildMarkers.Proofs.Workspace.Tour
/-!
# Trees that are scanned

A survey adds a project, and then nothing but what is below it (`Step.IsBelow`): the
entries of directories, by their names, and the configured links, by the segments of
their paths. So a scanned tree is one that calls have built (`isBuilt_of_scan`), and
its projects are the configured ones (`isSome_of_scan`).
-/

namespace BuildMarkers

variable {d : Disk} {t t' : Tree} {n : FileName} {text project name : String}
  {segments : List String} {place : Place} {p : Settings.Project} {ps : List Settings.Project}

namespace Tree

/-- The text of a plain name can stand in a path. -/
theorem isSegment_of_text? (hn : n.IsPlain) (h : n.text? = some text) : IsSegment text := by
  obtain rfl : FileName.ofString text = n := FileName.ofString_of_text? h
  refine ⟨?_, ?_, fun hslash => ?_⟩
  · rintro rfl
    exact hn.ne_nil rfl
  · rintro rfl
    exact hn.ne_dot (by decide)
  · obtain ⟨first, rest, hform, hfirst⟩ := Path.exists_cons_utf8EncodeChar '/'
    refine hn.slash_notMem (List.mem_flatMap.2 ⟨'/', hslash, ?_⟩)
    rw [hform, hfirst.2 rfl]
    exact List.mem_cons_self

end Tree

namespace Survey

open BuildMarkers.Tree

variable {steps : List Step}

/-- The step adds nothing but what is below the project, by names that can stand in a
path. -/
def Step.IsBelow (project : String) : Step → Prop
  | .call (.resource owner segments _ _) => owner = project ∧ ∀ s ∈ segments, IsSegment s
  | .call (.project _ _) => False
  | .warning _ => True
  | .failure _ => False

/-- **What holds for the entries of a directory holds for all that is below it**, however
deep that goes. What is known of the segments of a directory passes to those of its
entries. -/
theorem forall_mem_directory (hd : d.IsSound) {known : List String → Prop} {motive : Step → Prop}
    (hwarning : ∀ text, motive (.warning text))
    (hentry : ∀ (segments : List String) (n : FileName) (text : String),
      known segments → n.IsEntry →
      n.text? = some text → known (segments ++ [text]) ∧ ∀ place f, finding? d place = some f →
        motive (.call (.resource project (segments ++ [text]) f.kind f.link)))
    {depth : ℕ} {walked : List Place} (hsegments : known segments) :
    ∀ step ∈ directory d project depth walked segments place, motive step := by
  induction depth generalizing walked segments place with
  | zero => exact fun _ hstep => absurd hstep List.not_mem_nil
  | succ depth ih =>
    intro step hstep
    rw [directory] at hstep
    split_ifs at hstep with hwalked
    · exact absurd hstep List.not_mem_nil
    obtain ⟨warnings, hentries⟩ := exists_entries_eq d project segments place
    rw [hentries] at hstep
    rcases List.mem_append.1 hstep with hstep | hstep
    · obtain ⟨warning, -, rfl⟩ := List.mem_map.1 hstep
      exact hwarning warning
    obtain ⟨n, hn, hstep⟩ := List.mem_flatMap.1 hstep
    by_cases hshown : ∃ text, Shows d place n text
    · obtain ⟨text, hshows⟩ := hshown
      obtain ⟨hknown, hcall⟩ :=
        hentry segments n text hsegments (Disk.isEntry_of_mem_listing hd hn) hshows.1
      rw [entry_of_shows hshows] at hstep
      cases hf : finding? d (place ++ [n]) with
      | none =>
        rw [hf] at hstep
        exact absurd hstep List.not_mem_nil
      | some f =>
        rw [hf] at hstep
        rcases List.mem_cons.1 hstep with rfl | hbelow
        · exact hcall _ f hf
        cases hdirectory : f.directory with
        | none =>
          rw [hdirectory] at hbelow
          exact absurd hbelow List.not_mem_nil
        | some real =>
          rw [hdirectory] at hbelow
          exact ih hknown step hbelow
    · obtain ⟨warning, hwarned⟩ := entry_of_not_shows _ (not_exists.1 hshown)
      rw [hwarned] at hstep
      exact List.mem_singleton.1 hstep ▸ hwarning warning

/-- All steps for what the segments lead to are below the project. -/
def AllBelow (project : String) (below : List String → Place → List Step) : Prop :=
  ∀ segments place, (∀ s ∈ segments, IsSegment s) →
    ∀ step ∈ below segments place, step.IsBelow project

/-- **A directory is surveyed below its project.** -/
theorem allBelow_directory (hd : d.IsSound) (depth : ℕ) (walked : List Place) :
    AllBelow project (directory d project depth walked) := by
  intro segments place hsegments
  refine forall_mem_directory hd (fun _ => trivial)
    (fun segments n text (hsegments : ∀ s ∈ segments, IsSegment s) hn htext => ?_) hsegments
  have hentry : ∀ s ∈ segments ++ [text], IsSegment s :=
    forall_mem_concat.2 ⟨hsegments, isSegment_of_text? hn.toIsPlain htext⟩
  exact ⟨hentry, fun _ _ _ => ⟨rfl, hentry⟩⟩

theorem isBelow_of_mem_linked {walk : List String → Place → List Step}
    (hwalk : AllBelow project walk)
    (link : Settings.LinkedResource) :
    ∀ step ∈ linked d walk project link, step.IsBelow project := by
  have hsegments : ∀ s ∈ segmentsOf link.path, IsSegment s := fun _ => isSegment_of_mem_segmentsOf
  unfold linked
  cases d.canonicalize link.target with
  | error fault => simp [Step.IsBelow]
  | ok place =>
    dsimp only
    split_ifs
    · exact List.forall_mem_cons.2 ⟨⟨rfl, hsegments⟩, hwalk _ place hsegments⟩
    · exact List.forall_mem_singleton.2 ⟨rfl, hsegments⟩

/-- Steps below a project build on, and leave the projects what they are. -/
theorem builds_of_isBelow (ht : t.IsBuilt) (hsteps : ∀ step ∈ steps, step.IsBelow project)
    (h : Builds t steps t') :
    t'.IsBuilt ∧ ∀ name, t'.get? (.ofProject name) = t.get? (.ofProject name) := by
  induction steps generalizing t with
  | nil =>
    obtain rfl := builds_nil.1 h
    exact ⟨ht, fun _ => rfl⟩
  | cons step steps ih =>
    obtain ⟨hstep, hrest⟩ := List.forall_mem_cons.1 hsteps
    cases step with
    | warning text => exact ih ht hrest h
    | failure error => exact hstep.elim
    | call call =>
      obtain ⟨u, hu, hbuilds⟩ := builds_call.1 h
      cases call with
      | project name location => exact hstep.elim
      | resource owner segments kind link =>
        have hcall : Call.IsSpelled (.resource owner segments kind link) :=
          exists_eq_segmentsOf_iff.2 hstep.2
        obtain ⟨hbuilt, hprojects⟩ := ih (ht.apply hcall hu) hrest hbuilds
        exact ⟨hbuilt, fun name =>
          (hprojects name).trans ((insert_extends ht.isGrown hu).get?_ofProject name)⟩

/-- The steps for a project add that project. -/
theorem builds_of_project (hd : d.IsSound) (ht : t.IsBuilt)
    (h : Builds t (Survey.project d (whole d) p) t') :
    t'.IsBuilt ∧ ∀ name, (t'.get? (.ofProject name)).isSome ↔
      (t.get? (.ofProject name)).isSome ∨ p.name = name := by
  obtain ⟨place, u, -, hu, h⟩ := of_builds_project h
  have hwhole : AllBelow p.name (whole d p.name) := allBelow_directory hd (depth d) []
  have hsteps : ∀ step ∈ whole d p.name [] place ++
      p.links.flatMap (linked d (whole d p.name) p.name), step.IsBelow p.name := by
    refine List.forall_mem_append.2 ⟨hwhole [] place (List.forall_mem_nil _), fun step hstep => ?_⟩
    obtain ⟨link, -, hstep⟩ := List.mem_flatMap.1 hstep
    exact isBelow_of_mem_linked hwhole link step hstep
  have hcall : Call.IsSpelled (.project p.name (pathOf place)) := trivial
  obtain ⟨hbuilt, hprojects⟩ := builds_of_isBelow (ht.apply hcall hu) hsteps h
  refine ⟨hbuilt, fun name => ?_⟩
  rw [hprojects, get?_ofProject_of_addProject hu, Option.isSome_or]
  by_cases hname : p.name = name
  · simp [hname]
  · simp [hname]

theorem builds_of_projects (hd : d.IsSound) (ht : t.IsBuilt) (h : Builds t (projects d ps) t') :
    t'.IsBuilt ∧ ∀ name, (t'.get? (.ofProject name)).isSome ↔
      (t.get? (.ofProject name)).isSome ∨ ∃ p ∈ ps, p.name = name := by
  induction ps generalizing t with
  | nil =>
    obtain rfl := builds_nil.1 h
    exact ⟨ht, fun name => by simp⟩
  | cons p ps ih =>
    rw [projects, List.flatMap_cons, builds_append] at h
    obtain ⟨u, hu, h⟩ := h
    obtain ⟨hbuilt, hproject⟩ := builds_of_project hd ht hu
    obtain ⟨hbuilt', hprojects⟩ := ih hbuilt h
    refine ⟨hbuilt', fun name => ?_⟩
    rw [hprojects, hproject, or_assoc]
    simp only [List.mem_cons, exists_eq_or_imp]

/-- **A scanned tree is built by calls.** -/
theorem isBuilt_of_scan (hd : d.IsSound) (h : (scan d ps).2 = .ok t) : t.IsBuilt :=
  (builds_of_projects hd .empty h).1

/-- **Its projects are the configured ones.** -/
theorem isSome_of_scan (hd : d.IsSound) (h : (scan d ps).2 = .ok t) :
    (t.get? (.ofProject name)).isSome ↔ ∃ p ∈ ps, p.name = name := by
  rw [(builds_of_projects hd .empty h).2]
  simp [Tree.empty, get?]

end Survey

end BuildMarkers
