import BuildMarkers.Proofs.Workspace.InPlace
import BuildMarkers.Proofs.Workspace.Tour
/-!
# Why calls and scans fail

A call for a resource is refused for one of four reasons (`Tree.Refuses`): there is no such
project, the path has no segment, a file stands on the way, or something else stands at the
end of it. A scan stops at the first step that cannot be carried out, and that step says
why (`Survey.build_eq_error_iff`).
-/

namespace BuildMarkers

variable {t t' u : Tree} {parent : Resource} {name project : String} {segments names : List String}
  {kind : Kind} {link : Link} {e : TreeError} {error : ScanError}

namespace Tree

/-- The tree has a reason to refuse a call for a resource. -/
inductive Refuses (t : Tree) (project : String) (segments : List String) : TreeError → Prop
  /-- It does not have the project. -/
  | unknownProject : t.get? (.ofProject project) = none →
      Refuses t project segments (.unknownProject project)
  /-- The path leads nowhere below it. -/
  | emptyPath : segments = [] → Refuses t project segments (.emptyPath project)
  /-- There is a file on the way. -/
  | notFolder {above rest : List String} {r : Resource} : segments = above ++ rest → rest ≠ [] →
      t.get? ⟨project, above⟩ = some r → r.isFile = true →
      Refuses t project segments (.notFolder r.address.fullPath)
  /-- Something else is there already. -/
  | conflict {r : Resource} : t.get? ⟨project, segments⟩ = some r →
      Refuses t project segments (.conflict r.address.fullPath)

/-- The way down ends at a file. -/
theorem makeFolders_eq_error (ht : t.IsGrown) (hparent : t.get? parent.address = some parent)
    (hcontainer : parent.isContainer = true) (h : t.makeFolders parent names = .error e) :
    ∃ above rest r, names = above ++ rest ∧
      t.get? ⟨parent.address.project, parent.address.segments ++ above⟩ = some r ∧ r.isFile = true ∧
      e = .notFolder r.address.fullPath := by
  induction names generalizing parent with
  | nil => cases h
  | cons name names ih =>
    rw [makeFolders] at h
    cases hchild : t.get? (parent.address.child name) with
    | none =>
      -- below a folder that has just been made all others are made too
      have hbare : (t.push parent name .folder .none).IsBare
          (parent.below name .folder .none).address :=
        ht.isBare_push hchild
      have hmade : ∃ r, ((t.push parent name .folder .none).putFolders
          (parent.below name .folder .none) names).1 = .ok r ∧ _ :=
        exists_putFolders_of_isBare (ht.push hparent hcontainer hchild)
          (get?_push_self hchild) rfl hbare
      obtain ⟨r, hput, -⟩ := hmade
      rw [hchild] at h
      simp [makeFolders_eq, hput, Except.map] at h
    | some s =>
      rw [hchild] at h
      simp only at h
      split_ifs at h with hfile
      · cases h
        exact ⟨[name], names, s, rfl, hchild, hfile, rfl⟩
      · have haddress := address_of_get? hchild
        obtain ⟨above, rest, r, hnames, hr, hrfile, he⟩ :=
          ih (haddress ▸ hchild) (by simpa using hfile) h
        refine ⟨name :: above, rest, r, by rw [hnames, List.cons_append], ?_, hrfile, he⟩
        simpa [haddress, Address.child] using hr

theorem addChild_eq_error (h : t.addChild parent name kind link = .error e) :
    ∃ r, t.get? (parent.address.child name) = some r ∧ e = .conflict r.address.fullPath := by
  unfold addChild at h
  cases hchild : t.get? (parent.address.child name) with
  | none =>
    rw [hchild] at h
    cases h
  | some r =>
    simp only [hchild] at h
    split_ifs at h
    cases h
    exact ⟨r, rfl, rfl⟩

/-- **A call for a resource is refused for a reason.** -/
theorem IsGrown.refuses (ht : t.IsGrown) (h : t.insert project segments kind link = .error e) :
    t.Refuses project segments e := by
  unfold insert at h
  cases hroot : t.get? (.ofProject project) with
  | none =>
    rw [hroot] at h
    cases h
    exact .unknownProject hroot
  | some root =>
    rcases List.eq_nil_or_concat' segments with rfl | ⟨above, name, rfl⟩
    · rw [hroot] at h
      cases h
      exact .emptyPath rfl
    · have haddress : root.address = .ofProject project := address_of_get? hroot
      have hget : t.get? root.address = some root := haddress ▸ hroot
      have hcontainer := ht.isContainer_of_root hroot
      simp only [hroot, List.getLast?_concat, List.dropLast_concat] at h
      cases hfolders : t.makeFolders root above with
      | error reason =>
        rw [hfolders] at h
        cases h
        obtain ⟨front, rest, r, rfl, hr, hfile, rfl⟩ :=
          makeFolders_eq_error ht hget hcontainer hfolders
        rw [haddress] at hr
        exact .notFolder (List.append_assoc ..) (by simp) hr hfile
      | ok made =>
        obtain ⟨u, parent⟩ := made
        rw [hfolders] at h
        obtain ⟨r, hr, rfl⟩ := addChild_eq_error h
        have hput := putFolders_of_makeFolders hfolders
        have hcases := putFolders_cases ht hget hcontainer above
        rw [hput] at hcases
        -- what is there was there before, since nothing is below a folder that has just been made
        obtain rfl : u = t := hcases.resolve_right fun ⟨q, hq, hbare⟩ => by
          rw [← Except.ok.inj hq, IsBare] at hbare
          exact absurd (hr.symm.trans (hbare name)) (by simp)
        have hparent := (makeFolders_eq_ok ht hget hcontainer hfolders).2.2.2.1
        rw [address_of_get? hparent, haddress] at hr
        exact .conflict hr

end Tree

namespace Survey

open BuildMarkers.Tree

variable {steps : List Step}

/-- The step cannot be carried out, and this is why. -/
def Step.Fails (t : Tree) (error : ScanError) : Step → Prop
  | .call asked => ∃ e, t.apply asked = .error e ∧ error = .tree e
  | .warning _ => False
  | .failure reason => reason = error

/-- **A scan fails at the first step that cannot be carried out.** -/
theorem build_eq_error_iff : (build t steps).2 = .error error ↔
    ∃ before step after u, steps = before ++ step :: after ∧ Builds t before u ∧
      step.Fails u error := by
  constructor
  · intro h
    induction steps generalizing t with
    | nil => cases h
    | cons step steps ih =>
      cases step with
      | warning text =>
        obtain ⟨before, step, after, u, rfl, hbuilds, hfails⟩ := ih h
        exact ⟨.warning text :: before, step, after, u, rfl, hbuilds, hfails⟩
      | failure reason =>
        cases h
        exact ⟨[], .failure error, steps, t, rfl, builds_nil.2 rfl, rfl⟩
      | call call =>
        cases happly : t.apply call with
        | error e =>
          simp only [build, happly, Except.error.injEq] at h
          exact ⟨[], .call call, steps, t, rfl, builds_nil.2 rfl, e, happly, h.symm⟩
        | ok v =>
          simp only [build, happly] at h
          obtain ⟨before, step, after, u, rfl, hbuilds, hfails⟩ := ih h
          exact ⟨.call call :: before, step, after, u, rfl,
            builds_call.2 ⟨v, happly, hbuilds⟩, hfails⟩
  · rintro ⟨before, step, after, u, rfl, hbuilds, hfails⟩
    induction before generalizing t with
    | nil =>
      obtain rfl := builds_nil.1 hbuilds
      cases step with
      | warning text => exact hfails.elim
      | failure reason => exact congrArg Except.error hfails
      | call call =>
        obtain ⟨e, happly, rfl⟩ := hfails
        simp only [List.nil_append, build, happly]
    | cons first before ih =>
      cases first with
      | warning text => exact ih hbuilds
      | failure reason => exact absurd hbuilds not_builds_failure
      | call call =>
        obtain ⟨v, happly, hrest⟩ := builds_call.1 hbuilds
        simp only [List.cons_append, build, happly]
        exact ih hrest

/-- Steps that are carried out let the tree grow. -/
theorem grows_of_builds (ht : t.IsGrown) (h : Builds t steps t') : t.Grows t' ∧ t'.IsGrown := by
  induction steps generalizing t with
  | nil =>
    obtain rfl := builds_nil.1 h
    exact ⟨.refl t, ht⟩
  | cons step steps ih =>
    cases step with
    | warning text => exact ih ht h
    | failure reason => exact absurd h not_builds_failure
    | call call =>
      obtain ⟨u, hu, h⟩ := builds_call.1 h
      obtain ⟨hgrows, hgrown⟩ := apply_eq_ok ht hu
      obtain ⟨hgrows', hgrown'⟩ := ih hgrown h
      exact ⟨hgrows.trans hgrows', hgrown'⟩

/-- None of them is a failure. -/
theorem failure_notMem_of_builds (h : Builds t steps t') : .failure error ∉ steps := by
  intro hmem
  obtain ⟨before, after, rfl⟩ := List.append_of_mem hmem
  obtain ⟨u, -, h⟩ := builds_append.1 h
  exact not_builds_failure h

/-- **What a step calls for is there in the end.** -/
theorem asked_of_builds (ht : t.IsGrown) (h : Builds t steps t')
    (hmem : .call (.resource project segments kind link) ∈ steps) :
    segments ≠ [] ∧ ∃ r, t'.get? ⟨project, segments⟩ = some r ∧ r.link.same link = true := by
  obtain ⟨before, after, rfl⟩ := List.append_of_mem hmem
  obtain ⟨u, hu, h⟩ := builds_append.1 h
  obtain ⟨v, hv, h⟩ := builds_call.1 h
  obtain ⟨-, hgrown⟩ := grows_of_builds ht hu
  obtain ⟨-, hgrown', above, name, parent, link', hsegments, hlink, -, hget, -⟩ :=
    insert_eq_ok hgrown hv
  obtain ⟨hgrows, -⟩ := grows_of_builds hgrown' h
  exact ⟨by simp [hsegments], _, hgrows.get? hget, hlink⟩

end Survey

end BuildMarkers
