import BuildMarkers.Proofs.Settings.Violations
/-!
# Valid settings

What settings without a violation satisfy: the names of the projects differ,
every location and every target of a link is an absolute path, and the links of a
project have different keys (`linkViolations_eq_nil_iff`).
-/

namespace BuildMarkers

namespace Settings

variable {α β : Type} {s : Settings} {p : Project} {l : List α} {f : List α → ℕ → α → List β}

/-- The location of the project and the targets of its links are absolute. -/
def Project.IsAbsolute (p : Project) : Prop :=
  p.location.isAbsolute = true ∧ ∀ l ∈ p.links, l.target.isAbsolute = true

/-! ## Lists without violations -/

/-- Nothing is found in order just if nothing is found for any entry. -/
theorem inOrder_eq_nil_iff :
    inOrder f l = [] ↔ ∀ i x, l[i]? = some x → f (l.take i) i x = [] := by
  rw [inOrder, List.flatMap_eq_nil_iff]
  constructor
  · exact fun h i x hx => h (x, i) (List.mem_zipIdx_iff_getElem?.2 hx)
  · exact fun h entry hentry => h _ _ (List.mem_zipIdx_iff_getElem?.1 hentry)

/-- Keys differ if each of them differs from those before it. -/
theorem nodup_map_of_take {key : α → β}
    (h : ∀ i x, l[i]? = some x → ∀ other ∈ l.take i, key other ≠ key x) : (l.map key).Nodup := by
  refine List.pairwise_map.2 (List.pairwise_iff_getElem.2 fun i j hi hj hij => ?_)
  refine h j l[j] (List.getElem?_eq_getElem hj) l[i] ?_
  exact List.mem_take_iff_getElem.2 ⟨i, by omega, rfl⟩

theorem pathViolations_eq_nil_iff {field : String} {path : Path} :
    pathViolations field path = [] ↔ path.isAbsolute = true := by
  unfold pathViolations
  split_ifs with h <;> simp [h]

/-- **A link without a violation** has a key of its own and an absolute target. -/
theorem linkViolations_eq_nil_iff {field : String} {before : List LinkedResource} {index : ℕ}
    {link : LinkedResource} : linkViolations field before index link = [] ↔
      linkKey link ≠ [] ∧ (∀ other ∈ before, linkKey other ≠ linkKey link) ∧
        link.target.isAbsolute = true := by
  rw [linkViolations, List.append_eq_nil_iff, pathViolations_eq_nil_iff, ← isEmpty_linkKey,
    ← and_assoc]
  refine and_congr_left fun _ => ?_
  by_cases hempty : linkKey link = [] <;> simp [hempty]

/-- A project without a violation has a name of its own and an absolute location. -/
theorem of_ownViolations {before : List Project} {index : ℕ}
    (h : ownViolations before index p = []) :
    (∀ other ∈ before, other.name ≠ p.name) ∧ p.location.isAbsolute = true := by
  rw [ownViolations, List.append_eq_nil_iff, pathViolations_eq_nil_iff] at h
  obtain ⟨hname, hlocation⟩ := h
  refine ⟨fun other hother heq => ?_, hlocation⟩
  split_ifs at hname with hblank hseen
  exact hseen ⟨other, hother, heq⟩

/-! ## Settings without violations -/

/-- What is known of a project of valid settings: nothing is wrong with it, nor with its
links. -/
theorem of_validate (h : s.validate = .ok ()) {i : ℕ} (hp : s.projects[i]? = some p) :
    ownViolations (s.projects.take i) i p = [] ∧
      inOrder (linkViolations (indexed "workspace.projects" i)) p.links = [] := by
  rw [validate_eq_ok_iff, violations, List.append_eq_nil_iff, inOrder_eq_nil_iff] at h
  exact List.append_eq_nil_iff.1 (h.1 i p hp)

/-- **The paths of valid settings are absolute.** -/
theorem isAbsolute_of_validate (h : s.validate = .ok ()) : ∀ p ∈ s.projects, p.IsAbsolute := by
  intro p hp
  obtain ⟨i, hi⟩ := List.mem_iff_getElem?.1 hp
  obtain ⟨hown, hlinks⟩ := of_validate h hi
  refine ⟨(of_ownViolations hown).2, fun l hl => ?_⟩
  obtain ⟨j, hj⟩ := List.mem_iff_getElem?.1 hl
  exact (linkViolations_eq_nil_iff.1 (inOrder_eq_nil_iff.1 hlinks j l hj)).2.2

/-- **The projects of valid settings have different names.** -/
theorem nodup_of_validate (h : s.validate = .ok ()) : (s.projects.map Project.name).Nodup :=
  nodup_map_of_take fun _ _ hp => (of_ownViolations (of_validate h hp).1).1

/-- **The links of a project of valid settings have different keys**, and none is empty. -/
theorem linkKeys_of_validate (h : s.validate = .ok ()) (hp : p ∈ s.projects) :
    (∀ l ∈ p.links, linkKey l ≠ []) ∧ (p.links.map linkKey).Nodup := by
  obtain ⟨i, hi⟩ := List.mem_iff_getElem?.1 hp
  have hlinks := inOrder_eq_nil_iff.1 (of_validate h hi).2
  constructor
  · intro l hl
    obtain ⟨j, hj⟩ := List.mem_iff_getElem?.1 hl
    exact (linkViolations_eq_nil_iff.1 (hlinks j l hj)).1
  · exact nodup_map_of_take fun j l hj => (linkViolations_eq_nil_iff.1 (hlinks j l hj)).2.1

end Settings

end BuildMarkers
