import BuildMarkers.Proofs.Workspace.Built
/-!
# The listings of a tree

The projects, the children of a resource and the files of a project are listed
in strictly increasing order, and by nothing but what addresses lead to:
`mem_projects`, `mem_children` and `mem_files` say which names and addresses are
listed, and `pairwise_projects`, `pairwise_children` and `pairwise_files` that
each of them is listed once, in the order of names or of segments. A list of
this kind is known by its members.
-/

namespace BuildMarkers

namespace Tree

variable {t : Tree} {a : Address} {r : Resource} {name n project : String}

theorem get?_isSome_iff : (t.get? a).isSome = true ↔ ∃ r ∈ t.resources, r.address = a := by
  simp [get?]

/-- What is added at a free address has an address of its own. -/
theorem nodup_append (h : (t.resources.map (·.address)).Nodup) (hfree : t.get? r.address = none) :
    ((t.resources ++ [r]).map (·.address)).Nodup := by
  rw [List.map_append, List.map_singleton, ← List.concat_eq_append]
  refine List.Nodup.concat (fun hmem => ?_) h
  obtain ⟨s, hs, haddress⟩ := List.mem_map.1 hmem
  have hsome : (t.get? r.address).isSome := get?_isSome_iff.2 ⟨s, hs, haddress⟩
  rw [hfree] at hsome
  cases hsome

/-- **No address is that of two resources.** -/
theorem IsBuilt.nodup (h : t.IsBuilt) : (t.resources.map (·.address)).Nodup := by
  induction h with
  | empty => exact List.nodup_nil
  | append _ hfree _ ih => exact nodup_append ih hfree

/-- A list sorted by a linear key is strictly so, if no key comes twice. -/
theorem pairwise_lt_mergeSort {α β : Type} [LinearOrder β] (key : α → β) {l : List α}
    (hnodup : (l.map key).Nodup) :
    (l.mergeSort fun a b => decide (key a ≤ key b)).Pairwise fun a b => key a < key b := by
  have hsorted : (l.mergeSort fun a b => decide (key a ≤ key b)).Pairwise
      fun a b => decide (key a ≤ key b) = true :=
    List.pairwise_mergeSort
      (fun a b c hab hbc => by simpa using le_trans (of_decide_eq_true hab) (of_decide_eq_true hbc))
      (fun a b => by simpa using le_total (key a) (key b)) l
  have hdistinct : ((l.mergeSort fun a b => decide (key a ≤ key b)).map key).Nodup :=
    ((List.mergeSort_perm l _).map key).nodup_iff.2 hnodup
  refine (hsorted.and (List.pairwise_map.1 hdistinct)).imp fun hab => ?_
  exact lt_of_le_of_ne (of_decide_eq_true hab.1) hab.2

/-! ## Projects -/

theorem mem_projects : name ∈ t.projects ↔ t.hasProject name = true := by
  rw [projects, (List.mergeSort_perm _ _).mem_iff, hasProject, get?_isSome_iff, List.mem_map]
  constructor
  · rintro ⟨r, hr, rfl⟩
    obtain ⟨hr, hnil⟩ := List.mem_filter.1 hr
    exact ⟨r, hr, Address.eq_ofProject_of_segments (by simpa using hnil)⟩
  · rintro ⟨r, hr, haddress⟩
    refine ⟨r, List.mem_filter.2 ⟨hr, ?_⟩, ?_⟩ <;> simp [haddress]

theorem IsBuilt.pairwise_projects (h : t.IsBuilt) : t.projects.Pairwise (· < ·) := by
  refine pairwise_lt_mergeSort id ?_
  rw [List.map_id]
  refine List.pairwise_map.2 (List.pairwise_filter.2 ((List.pairwise_map.1 h.nodup).imp ?_))
  intro r s hne hr hs heq
  rw [List.isEmpty_iff] at hr hs
  refine hne ?_
  rw [Address.eq_ofProject_of_segments hr, Address.eq_ofProject_of_segments hs, heq]

/-! ## Children -/

theorem childName?_eq_some_iff : childName? a r = some n ↔ r.address = a.child n := by
  unfold childName?
  split_ifs with h
  · rw [Address.parent?_eq_some_iff] at h
    rw [h]
    simp only [Address.segments_child, List.getLast?_concat, Option.some.injEq]
    exact ⟨fun h => by rw [h], fun h => (Address.child_injective h).2⟩
  · refine ⟨nofun, fun hr => absurd ?_ h⟩
    rw [hr, Address.parent?_child]

theorem mem_children : n ∈ t.children a ↔ (t.get? (a.child n)).isSome = true := by
  rw [children, (List.mergeSort_perm _ _).mem_iff, get?_isSome_iff, List.mem_filterMap]
  simp only [childName?_eq_some_iff]

theorem IsBuilt.pairwise_children (h : t.IsBuilt) (a : Address) :
    (t.children a).Pairwise (· < ·) := by
  refine pairwise_lt_mergeSort id ?_
  rw [List.map_id]
  refine List.pairwise_filterMap.2 ((List.pairwise_map.1 h.nodup).imp ?_)
  intro r s hne m hm n hn heq
  rw [childName?_eq_some_iff] at hm hn
  exact hne (by rw [hm, hn, heq])

/-! ## Files -/

theorem isFile_iff : t.isFile a = true ↔ ∃ r, t.get? a = some r ∧ r.isFile = true := by
  simp [isFile, Option.any_eq_true]

theorem walkLE_eq (a b : List String) : walkLE a b = decide (a ≤ b) := by
  rw [walkLE, Bool.eq_iff_iff, Bool.not_eq_true', Bool.eq_false_iff, ne_eq,
    List.lex_eq_true_iff_lt, decide_eq_true_iff, not_lt]

theorem IsBuilt.mem_files (h : t.IsBuilt) :
    a ∈ t.files project ↔ a.project = project ∧ t.isFile a = true := by
  rw [files, (List.mergeSort_perm _ _).mem_iff, List.mem_map, isFile_iff]
  constructor
  · rintro ⟨r, hr, rfl⟩
    obtain ⟨hr, hfilter⟩ := List.mem_filter.1 hr
    obtain ⟨hfile, hproject⟩ := Bool.and_eq_true_iff.1 hfilter
    exact ⟨of_decide_eq_true hproject, r, h.isGrown.unique r hr, hfile⟩
  · rintro ⟨hproject, r, hr, hfile⟩
    refine ⟨r, List.mem_filter.2 ⟨mem_of_get? hr, ?_⟩, address_of_get? hr⟩
    rw [hfile, address_of_get? hr, hproject]
    simp

/-- **The files of a project are listed in the order of their segments**, each
once. -/
theorem IsBuilt.pairwise_files (h : t.IsBuilt) (project : String) :
    (t.files project).Pairwise fun a b => a.segments < b.segments := by
  simp only [files, walkLE_eq]
  refine pairwise_lt_mergeSort Address.segments ?_
  rw [List.map_map]
  refine List.pairwise_map.2 (List.pairwise_filter.2 ((List.pairwise_map.1 h.nodup).imp ?_))
  intro r s hne hr hs heq
  have hproject : r.address.project = s.address.project := by
    rw [of_decide_eq_true (Bool.and_eq_true_iff.1 hr).2,
      of_decide_eq_true (Bool.and_eq_true_iff.1 hs).2]
  exact hne (by rw [Address.mk.injEq]; exact ⟨hproject, heq⟩)

/-- No file is listed twice. -/
theorem IsBuilt.nodup_files (h : t.IsBuilt) (project : String) : (t.files project).Nodup := by
  refine (h.pairwise_files project).imp ?_
  rintro a _ hlt rfl
  exact lt_irrefl _ hlt

end Tree

end BuildMarkers
