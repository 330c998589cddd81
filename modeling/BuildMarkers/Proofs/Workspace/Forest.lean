import BuildMarkers.Proofs.Workspace.Arena
import BuildMarkers.Proofs.Workspace.Spellings
import BuildMarkers.Proofs.Workspace.Walk
/-!
# Arenas are forests

Whatever calls are made, and whichever of them fail, the slots of the arena form a
forest (`isForest_performAll`). The number of a parent is smaller than that of its
child, so the walks to the top end; the maps of children and of projects say the
same as the numbers of parents and of projects; and the names on the way from its
project lead down to a resource again. All of this is read off the tree that the
arena holds, in which a number is the position of an address.
-/

namespace BuildMarkers

/-- A loop that ends does not need more passes. -/
theorem Pass.loop_of_le {σ β : Type} {pass : Pass σ β} {k m : ℕ} {state : σ} {result : β}
    (h : pass.loop k state = some result) (hle : k ≤ m) : pass.loop m state = some result := by
  induction k generalizing m state with
  | zero => cases h
  | succ k ih =>
    obtain ⟨m, rfl⟩ : ∃ m', m = m' + 1 := ⟨m - 1, by omega⟩
    rw [Pass.loop] at h ⊢
    cases hpass : pass state with
    | none =>
      rw [hpass] at h
      cases h
    | some next =>
      rw [hpass] at h
      cases next with
      | inl state => exact ih h (by omega)
      | inr result => exact h

namespace Arena

variable {t : Tree} {a : Arena} {s p : Slot} {r q : Resource} {b : Address} {n : String}
  {names : List String} {i j : ℕ}

/-- The slots of the arena, the map of projects and what is asked of them fit
together. -/
structure IsForest (a : Arena) : Prop where
  /-- What is above a resource has a smaller number. -/
  parent_lt : ∀ {i j : ℕ} {s : Slot}, a.slots[i]? = some s → s.parent = some j → j < i
  /-- Projects, and only they, have nothing above them. -/
  parent_eq_none_iff : ∀ {i : ℕ} {s : Slot}, a.slots[i]? = some s →
    (s.parent = none ↔ s.kind = .project)
  /-- Projects, and only they, own themselves. -/
  project_eq_iff : ∀ {i : ℕ} {s : Slot}, a.slots[i]? = some s →
    (s.project = i ↔ s.kind = .project)
  /-- What owns a resource is a project. -/
  exists_project : ∀ {i : ℕ} {s : Slot}, a.slots[i]? = some s →
    ∃ root, a.slots[s.project]? = some root ∧ root.kind = .project
  /-- What is above a resource is no file, and has the same project. -/
  exists_parent : ∀ {i : ℕ} {s : Slot}, a.slots[i]? = some s → s.kind ≠ .project →
    ∃ j p, s.parent = some j ∧ a.slots[j]? = some p ∧ p.kind ≠ .file ∧ p.project = s.project
  /-- Whatever is listed as a child is there. -/
  exists_child : ∀ {i j : ℕ} {p : Slot} {n : String}, a.slots[j]? = some p →
    p.children.get? n = some i → ∃ s, a.slots[i]? = some s
  /-- A resource is listed by its parent, under its own name, and nowhere else. -/
  children_iff : ∀ {i j : ℕ} {s p : Slot} {n : String}, a.slots[i]? = some s →
    a.slots[j]? = some p → (p.children.get? n = some i ↔ s.parent = some j ∧ n = s.name)
  /-- Files have no children. -/
  children_of_file : ∀ {i : ℕ} {s : Slot}, a.slots[i]? = some s → s.kind = .file →
    s.children = .empty
  /-- A name leads to the project that has it. -/
  projects_iff : ∀ {i : ℕ} {n : String}, a.projects.get? n = some i ↔
    ∃ s, a.slots[i]? = some s ∧ s.kind = .project ∧ s.name = n
  /-- The walk to the top ends, and the names that it finds lead down again. -/
  exists_segments : ∀ {i : ℕ} {s : Slot}, a.slots[i]? = some s →
    ∃ names, a.segments i = some names ∧ a.descend? s.project names = some i
  /-- The project and these names identify a resource. -/
  eq_of_segments : ∀ {i j : ℕ} {s p : Slot}, a.slots[i]? = some s → a.slots[j]? = some p →
    s.project = p.project → a.segments i = a.segments j → i = j
  exists_fullPath : ∀ {i : ℕ} {s : Slot}, a.slots[i]? = some s → ∃ path, a.fullPath i = some path
  /-- The walk that looks for links ends. -/
  exists_isLinked : ∀ {i : ℕ} {s : Slot}, a.slots[i]? = some s →
    ∃ linked, a.isLinked i = some linked
  /-- The walk over the files at and below a resource ends. -/
  exists_files : ∀ {i : ℕ} {s : Slot}, a.slots[i]? = some s → ∃ files, a.files i = some files

/-! ## From a slot to the one above -/

/-- A slot is that of a resource. -/
theorem Holds.exists_resource (h : a.Holds t) (hs : a.slots[i]? = some s) :
    ∃ r, t.resources[i]? = some r ∧ s.Holds t r := by
  have hi : i < t.resources.length := h.length_eq ▸ (List.getElem?_eq_some_iff.1 hs).1
  have hr := List.getElem?_eq_getElem hi
  obtain ⟨s', hs', hslot⟩ := h.slot hr
  obtain rfl : s = s' := Option.some.inj (hs.symm.trans hs')
  exact ⟨_, hr, hslot⟩

theorem Holds.lt_passes (h : a.Holds t) (hr : t.resources[i]? = some r) : i < a.passes := by
  have hlt := (List.getElem?_eq_some_iff.1 hr).1
  rw [passes, h.length_eq]
  omega

/-- Above a child stands the resource of whose address its own is a child. -/
theorem Holds.exists_parent (h : a.Holds t) (hr : t.resources[i]? = some r) (hs : s.Holds t r)
    (hb : r.address = b.child n) :
    ∃ j p, s.parent = some j ∧ t.resources[j]? = some p ∧ p.address = b ∧ p.isContainer = true := by
  have hget := h.get?_address hr
  rw [hb] at hget
  obtain ⟨p, hp, hcontainer⟩ := h.isGrown.exists_above hget
  have hnumber := Tree.number?_of_get? hp
  refine ⟨_, p, ?_, Tree.getElem?_of_number? hp hnumber, Tree.address_of_get? hp, hcontainer⟩
  rw [hs.parent_eq, hb, Address.parent?_child]
  exact hnumber

/-- And this one has a smaller number. -/
theorem Holds.parent_lt (h : a.Holds t) (ht : t.IsBuilt) (hr : t.resources[i]? = some r)
    (hs : s.Holds t r) (hj : s.parent = some j) : j < i := by
  rw [hs.parent_eq] at hj
  obtain ⟨b, hb, hj⟩ := Option.bind_eq_some_iff.1 hj
  obtain ⟨k, p, hk, hp, rfl, -⟩ := ht.exists_earlier hr hb
  rw [h.number?_address hp] at hj
  exact Option.some.inj hj ▸ hk

/-! ## Walks to the top -/

/-- The walk to the top takes no more passes than the number of the resource says, since
that of a parent is smaller. -/
theorem Holds.loop_climb (h : a.Holds t) (ht : t.IsBuilt) (hr : t.resources[i]? = some r)
    {k : ℕ} (hk : i < k) (below : List String) :
    a.climb.loop k (i, below) = some (r.address.segments ++ below) := by
  obtain ⟨k, rfl⟩ : ∃ k', k = k' + 1 := ⟨k - 1, by omega⟩
  obtain ⟨s, hs, hslot⟩ := h.slot hr
  generalize hb : r.address = b
  induction b using Address.childInduction generalizing i r s k below with
  | project name =>
    have hparent : s.parent = none := by
      rw [hslot.parent_eq, hb]
      rfl
    simp [Pass.loop, climb, hs, hparent]
  | child b n ih =>
    obtain ⟨j, p, hparent, hp, haddress, -⟩ := h.exists_parent hr hslot hb
    have hlt := h.parent_lt ht hr hslot hparent
    have hname : s.name = n := by rw [hslot.name_eq, hb, Address.name_child]
    obtain ⟨k, rfl⟩ : ∃ k', k = k' + 1 := ⟨k - 1, by omega⟩
    obtain ⟨s', hs', hslot'⟩ := h.slot hp
    have hrest := ih hp (n :: below) k (by omega) s' hs' hslot' haddress
    rw [Pass.loop]
    simpa [climb, hs, hparent, hname] using hrest

/-- **The walk to the top finds the segments of the address.** -/
theorem Holds.segments_eq (h : a.Holds t) (ht : t.IsBuilt) (hr : t.resources[i]? = some r) :
    a.segments i = some r.address.segments := by
  have hlt := h.lt_passes hr
  rw [segments, h.loop_climb ht hr hlt, List.append_nil]

theorem Holds.fullPath_eq (h : a.Holds t) (ht : t.IsBuilt) (hr : t.resources[i]? = some r) :
    a.fullPath i = some r.address.fullPath := by
  obtain ⟨s, hs, hslot⟩ := h.slot hr
  obtain ⟨q, hq, haddress⟩ := (Tree.number?_eq_some_iff h.nodup).1 hslot.project_eq.symm
  obtain ⟨root, hroot, hroot'⟩ := h.slot hq
  have hname : root.name = r.address.project := by
    rw [hroot'.name_eq, haddress]
    rfl
  rw [fullPath, hs]
  simp [hroot, h.segments_eq ht hr, hname]

theorem Holds.loop_seekLink (h : a.Holds t) (ht : t.IsBuilt) (hr : t.resources[i]? = some r)
    {k : ℕ} (hk : i < k) : a.seekLink.loop k i = some (t.isLinked r.address) := by
  obtain ⟨k, rfl⟩ : ∃ k', k = k' + 1 := ⟨k - 1, by omega⟩
  obtain ⟨s, hs, hslot⟩ := h.slot hr
  have hget := h.get?_address hr
  generalize hb : r.address = b at hget
  induction b using Address.childInduction generalizing i r s k with
  | project name =>
    have hparent : s.parent = none := by
      rw [hslot.parent_eq, hb]
      rfl
    have hlinked : t.isLinked (.ofProject name) = decide (s.link ≠ .none) := by
      have hchain : (Address.ofProject name).chain = [.ofProject name] := rfl
      rw [Tree.isLinked, hchain, hslot.link_eq]
      simp [hget]
    rw [Pass.loop, hlinked]
    by_cases hlink : s.link = .none <;> simp [seekLink, hs, hlink, hparent]
  | child b n ih =>
    obtain ⟨j, p, hparent, hp, haddress, -⟩ := h.exists_parent hr hslot hb
    have hlinked : t.isLinked (b.child n) = (t.isLinked b || decide (s.link ≠ .none)) := by
      rw [Tree.isLinked, Address.chain_child, List.any_append, Tree.isLinked, hslot.link_eq]
      simp [hget]
    rw [Pass.loop, hlinked]
    by_cases hlink : s.link = .none
    · have hlt := h.parent_lt ht hr hslot hparent
      obtain ⟨k, rfl⟩ : ∃ k', k = k' + 1 := ⟨k - 1, by omega⟩
      obtain ⟨s', hs', hslot'⟩ := h.slot hp
      have hp' := h.get?_address hp
      have hrest := ih hp k (by omega) s' hs' hslot' haddress (haddress ▸ hp')
      simpa [seekLink, hs, hlink, hparent] using hrest
    · simp [seekLink, hs, hlink]

theorem Holds.isLinked_eq (h : a.Holds t) (ht : t.IsBuilt) (hr : t.resources[i]? = some r) :
    a.isLinked i = some (t.isLinked r.address) :=
  h.loop_seekLink ht hr (h.lt_passes hr)

/-! ## Walks down -/

theorem Holds.child?_eq (h : a.Holds t) (hr : t.resources[i]? = some r) (n : String) :
    a.child? i n = t.number? (r.address.child n) := by
  obtain ⟨s, hs, hslot⟩ := h.slot hr
  rw [child?, hs, Option.bind_some, hslot.children_eq]

/-- **Names lead down to the same resource** in the arena and in the tree. -/
theorem Holds.descend?_eq (h : a.Holds t) (hr : t.resources[i]? = some r) (names : List String) :
    a.descend? i names = (t.descend? r names).bind fun q => t.number? q.address := by
  induction names generalizing i r with
  | nil => exact ((Tree.number?_eq_some_iff h.nodup).2 ⟨r, hr, rfl⟩).symm
  | cons n names ih =>
    have hchild := h.child?_eq hr n
    rw [descend?, List.foldlM_cons, hchild, Tree.descend?, List.foldlM_cons]
    cases hget : t.get? (r.address.child n) with
    | none =>
      rw [Tree.number?_eq_none_iff.2 hget]
      rfl
    | some q =>
      rw [Tree.number?_of_get? hget]
      exact ih (Tree.getElem?_of_number? hget (Tree.number?_of_get? hget))

/-! ## The walk over files -/

/-- The children are listed in the slot as they are in the tree. -/
theorem Holds.entries_eq (ht : t.IsBuilt) (hs : s.Holds t r) :
    s.children.entries =
      (t.children r.address).map fun n => (n, t.position (r.address.child n)) := by
  refine List.Pairwise.eq_of_mem_iff s.children.sorted
    (List.pairwise_map.2 (ht.pairwise_children r.address)) fun ⟨n, i⟩ => ?_
  rw [NameMap.mem_entries_iff, hs.children_eq, List.mem_map]
  constructor
  · intro h
    obtain ⟨q, hq, hi⟩ := Option.map_eq_some_iff.1 h
    exact ⟨n, Tree.mem_children.2 (Option.isSome_of_eq_some hq), by rw [hi]⟩
  · rintro ⟨m, hm, heq⟩
    obtain ⟨rfl, rfl⟩ := Prod.mk.inj heq
    obtain ⟨q, hq⟩ := Option.isSome_iff_exists.1 (Tree.mem_children.1 hm)
    exact Tree.number?_of_get? hq

/-- A visit to a number is a visit to the address that has it. -/
theorem Holds.visit_eq (h : a.Holds t) (ht : t.IsBuilt) (hr : t.get? b = some r)
    (rest found : List Address) :
    a.visit ((b :: rest).map t.position, found.map t.position) =
      some (.inl ((Walk.step t ⟨b :: rest, found⟩).stack.map t.position,
        (Walk.step t ⟨b :: rest, found⟩).found.map t.position)) := by
  obtain ⟨s, hs, hslot⟩ := h.slot ((Tree.getElem?_position t b).trans hr)
  have hfile : s.kind = .file ↔ t.isFile b = true := by
    rw [hslot.kind_eq, Tree.isFile, hr, Option.any_some, Resource.isFile_iff]
  rw [List.map_cons, visit, hs]
  simp only [Option.bind_eq_bind, Option.bind_some, Walk.step, entries_eq ht hslot,
    Tree.address_of_get? hr, hfile]
  by_cases hb : t.isFile b = true <;> simp [hb, Function.comp_def]

/-- **The walk over numbers ends as the walk over addresses does**, one pass later. -/
theorem Holds.loop_visit (h : a.Holds t) (ht : t.IsBuilt) {k : ℕ} {w : Walk} {found : List Address}
    (hw : ∀ b ∈ w.stack, (t.get? b).isSome = true) (hend : (Walk.step t)^[k] w = ⟨[], found⟩) :
    a.visit.loop (k + 1) (w.stack.map t.position, w.found.map t.position) =
      some (found.map t.position) := by
  induction k generalizing w with
  | zero =>
    obtain rfl : w = ⟨[], found⟩ := hend
    rfl
  | succ k ih =>
    obtain ⟨_ | ⟨b, rest⟩, found'⟩ := w
    · -- the walk has ended before, and it stays as it is
      have hstays : (Walk.step t)^[k + 1] ⟨[], found'⟩ = ⟨[], found'⟩ :=
        Function.iterate_fixed rfl (k + 1)
      rw [hstays, Walk.mk.injEq] at hend
      rw [← hend.2]
      rfl
    · obtain ⟨r, hr⟩ := Option.isSome_iff_exists.1 (hw b List.mem_cons_self)
      rw [Function.iterate_succ_apply] at hend
      rw [Pass.loop, h.visit_eq ht hr]
      exact ih (Tree.isSome_of_mem_step hw) hend

theorem Holds.files_eq (h : a.Holds t) (ht : t.IsBuilt) (hr : t.resources[i]? = some r) :
    a.files i = some (((t.below r.address).filter t.isFile).map t.position) := by
  have hget := h.get?_address hr
  obtain rfl : t.position r.address = i :=
    Option.some.inj ((Tree.number?_of_get? hget).symm.trans (h.number?_address hr))
  have hstack : ∀ b ∈ [r.address], (t.get? b).isSome = true :=
    List.forall_mem_singleton.2 (Option.isSome_of_eq_some hget)
  have hwalk := h.loop_visit ht hstack (ht.iterate_step [] hstack)
  rw [List.flatMap_singleton, List.nil_append] at hwalk
  refine Pass.loop_of_le hwalk ?_
  -- no more is below a resource than there is
  have hbelow : (t.below r.address).length ≤ t.resources.length := by
    rw [Tree.below, List.length_mergeSort]
    exact (List.length_filter_le ..).trans_eq (List.length_map _)
  rw [passes, h.length_eq]
  omega

/-! ## Every arena is a forest -/

/-- The project of a slot is that of its address. -/
theorem Holds.exists_root (h : a.Holds t) (hs : s.Holds t r) :
    ∃ root, t.resources[s.project]? = some root ∧
      root.address = .ofProject r.address.project ∧ root.kind = .project := by
  obtain ⟨root, hroot, haddress⟩ := (Tree.number?_eq_some_iff h.nodup).1 hs.project_eq.symm
  have hget := h.get?_address hroot
  exact ⟨root, hroot, haddress, h.isGrown.kind_of_root (haddress ▸ hget)⟩

section Fields

variable (h : a.Holds t) (hr : t.resources[i]? = some r) (hs : s.Holds t r)

include h hr hs

theorem Holds.parent_eq_none_iff : s.parent = none ↔ r.address.segments = [] := by
  rw [← Address.parent?_eq_none_iff, hs.parent_eq]
  constructor
  · intro hnone
    by_contra habove
    obtain ⟨b, hb⟩ := Option.ne_none_iff_exists'.1 habove
    obtain ⟨j, p, hj, -⟩ := h.exists_parent hr hs (Address.parent?_eq_some_iff.1 hb)
    rw [hs.parent_eq, hnone] at hj
    cases hj
  · intro hnone
    rw [hnone]
    rfl

theorem Holds.project_eq_iff : s.project = i ↔ r.address.segments = [] := by
  rw [← Option.some_inj, hs.project_eq, Tree.number?_eq_some_iff h.nodup]
  constructor
  · rintro ⟨q, hq, haddress⟩
    obtain rfl : q = r := Option.some.inj (hq.symm.trans hr)
    rw [haddress, Address.segments_ofProject]
  · exact fun hnil => ⟨r, hr, Address.eq_ofProject_of_segments hnil⟩

theorem Holds.children_iff {p : Slot} (hq : t.resources[j]? = some q) (hp : p.Holds t q) :
    p.children.get? n = some i ↔ s.parent = some j ∧ n = s.name := by
  have hchild : p.children.get? n = some i ↔ r.address = q.address.child n := by
    rw [hp.children_eq, Tree.number?_eq_some_iff h.nodup]
    exact ⟨fun ⟨r', hr', haddress⟩ => Option.some.inj (hr'.symm.trans hr) ▸ haddress,
      fun haddress => ⟨r, hr, haddress⟩⟩
  rw [hchild, hs.parent_eq, hs.name_eq]
  constructor
  · intro haddress
    rw [haddress, Address.parent?_child, Address.name_child, Option.bind_some,
      h.number?_address hq]
    exact ⟨rfl, rfl⟩
  · rintro ⟨habove, rfl⟩
    obtain ⟨b, hb, hj⟩ := Option.bind_eq_some_iff.1 habove
    obtain ⟨q', hq', rfl⟩ := (Tree.number?_eq_some_iff h.nodup).1 hj
    obtain rfl : q = q' := Option.some.inj (hq.symm.trans hq')
    exact Address.parent?_eq_some_iff.1 hb

/-- A file has no children: what is above a resource is a container. -/
theorem Holds.children_of_file (hfile : r.isFile = true) : s.children = .empty := by
  refine NameMap.eq_empty_of_get? fun n => ?_
  rw [hs.children_eq, Tree.number?_eq_none_iff]
  refine Option.eq_none_iff_forall_ne_some.2 fun q hq => ?_
  obtain ⟨p, hp, hcontainer⟩ := h.isGrown.exists_above hq
  obtain rfl : r = p :=
    Option.some.inj ((h.get?_address hr).symm.trans hp)
  simp [Resource.isFile_iff.1 hfile] at hcontainer

/-- **The names on the way from its project lead down to the resource.** -/
theorem Holds.descend?_segments : a.descend? s.project r.address.segments = some i := by
  obtain ⟨root, hroot, haddress, -⟩ := h.exists_root hs
  have hget := h.get?_address hroot
  rw [haddress] at hget
  have hdown : t.descend? root r.address.segments = some r :=
    h.isGrown.descend?_eq hget (h.get?_address hr)
  rw [h.descend?_eq hroot, hdown, Option.bind_some, h.number?_address hr]

/-- One project and the same segments are one address. -/
theorem Holds.eq_of_segments {p : Slot} (hq : t.resources[j]? = some q) (hp : p.Holds t q)
    (hproject : s.project = p.project) (hsegments : r.address.segments = q.address.segments) :
    i = j := by
  obtain ⟨root, hroot, haddress, -⟩ := h.exists_root hs
  obtain ⟨root', hroot', haddress', -⟩ := h.exists_root hp
  rw [hproject, hroot', Option.some.injEq] at hroot
  rw [hroot, haddress] at haddress'
  have hname : r.address.project = q.address.project := by
    simpa [Address.ofProject] using haddress'
  refine Tree.position_unique h.nodup hr hq ?_
  rw [Address.mk.injEq]
  exact ⟨hname, hsegments⟩

end Fields

/-- **An arena is a forest if it holds a built tree** in which nothing below a project
is one. -/
theorem Holds.isForest (h : a.Holds t) (ht : t.IsBuilt)
    (hkinds : ∀ r ∈ t.resources, r.kind = .project ↔ r.address.segments = []) : a.IsForest := by
  have hkind {i : ℕ} {r : Resource} {s : Slot} (hr : t.resources[i]? = some r) (hs : s.Holds t r) :
      s.kind = .project ↔ r.address.segments = [] := by
    rw [hs.kind_eq, hkinds r (List.mem_of_getElem? hr)]
  constructor
  case parent_lt =>
    intro i j s hs hj
    obtain ⟨r, hr, hslot⟩ := h.exists_resource hs
    exact h.parent_lt ht hr hslot hj
  case parent_eq_none_iff =>
    intro i s hs
    obtain ⟨r, hr, hslot⟩ := h.exists_resource hs
    rw [h.parent_eq_none_iff hr hslot, hkind hr hslot]
  case project_eq_iff =>
    intro i s hs
    obtain ⟨r, hr, hslot⟩ := h.exists_resource hs
    rw [h.project_eq_iff hr hslot, hkind hr hslot]
  case exists_project =>
    intro i s hs
    obtain ⟨r, hr, hslot⟩ := h.exists_resource hs
    obtain ⟨root, hroot, -, hproject⟩ := h.exists_root hslot
    obtain ⟨s', hs', hslot'⟩ := h.slot hroot
    exact ⟨s', hs', hslot'.kind_eq.trans hproject⟩
  case exists_parent =>
    intro i s hs hnot
    obtain ⟨r, hr, hslot⟩ := h.exists_resource hs
    rw [ne_eq, hkind hr hslot, ← Address.parent?_eq_none_iff] at hnot
    obtain ⟨b, hb⟩ := Option.ne_none_iff_exists'.1 hnot
    obtain ⟨j, q, hj, hq, haddress, hcontainer⟩ :=
      h.exists_parent hr hslot (Address.parent?_eq_some_iff.1 hb)
    obtain ⟨p, hp, hslot'⟩ := h.slot hq
    refine ⟨j, p, hj, hp, ?_, ?_⟩
    · rw [hslot'.kind_eq]
      exact Resource.isContainer_iff.1 hcontainer
    · have hsame : q.address.project = r.address.project := by
        rw [haddress, Address.parent?_eq_some_iff.1 hb, Address.project_child]
      rw [← Option.some_inj, hslot'.project_eq, hslot.project_eq, hsame]
  case exists_child =>
    intro i j p n hp hi
    obtain ⟨q, hq, hslot⟩ := h.exists_resource hp
    rw [hslot.children_eq] at hi
    obtain ⟨r, hr, -⟩ := (Tree.number?_eq_some_iff h.nodup).1 hi
    obtain ⟨s, hs, -⟩ := h.slot hr
    exact ⟨s, hs⟩
  case children_iff =>
    intro i j s p n hs hp
    obtain ⟨r, hr, hslot⟩ := h.exists_resource hs
    obtain ⟨q, hq, hslot'⟩ := h.exists_resource hp
    exact h.children_iff hr hslot hq hslot'
  case children_of_file =>
    intro i s hs hfile
    obtain ⟨r, hr, hslot⟩ := h.exists_resource hs
    exact h.children_of_file hr hslot (Resource.isFile_iff.2 (hslot.kind_eq ▸ hfile))
  case projects_iff =>
    intro i n
    rw [h.projects_eq, Tree.number?_eq_some_iff h.nodup]
    constructor
    · rintro ⟨r, hr, haddress⟩
      obtain ⟨s, hs, hslot⟩ := h.slot hr
      refine ⟨s, hs, (hkind hr hslot).2 (by rw [haddress, Address.segments_ofProject]), ?_⟩
      rw [hslot.name_eq, haddress]
      rfl
    · rintro ⟨s, hs, hproject, rfl⟩
      obtain ⟨r, hr, hslot⟩ := h.exists_resource hs
      have haddress := Address.eq_ofProject_of_segments ((hkind hr hslot).1 hproject)
      refine ⟨r, hr, ?_⟩
      rw [hslot.name_eq, haddress]
      rfl
  case exists_segments =>
    intro i s hs
    obtain ⟨r, hr, hslot⟩ := h.exists_resource hs
    exact ⟨_, h.segments_eq ht hr, h.descend?_segments hr hslot⟩
  case eq_of_segments =>
    intro i j s p hs hp hproject hsegments
    obtain ⟨r, hr, hslot⟩ := h.exists_resource hs
    obtain ⟨q, hq, hslot'⟩ := h.exists_resource hp
    rw [h.segments_eq ht hr, h.segments_eq ht hq, Option.some.injEq] at hsegments
    exact h.eq_of_segments hr hslot hq hslot' hproject hsegments
  case exists_fullPath =>
    intro i s hs
    obtain ⟨r, hr, -⟩ := h.exists_resource hs
    exact ⟨_, h.fullPath_eq ht hr⟩
  case exists_isLinked =>
    intro i s hs
    obtain ⟨r, hr, -⟩ := h.exists_resource hs
    exact ⟨_, h.isLinked_eq ht hr⟩
  case exists_files =>
    intro i s hs
    obtain ⟨r, hr, -⟩ := h.exists_resource hs
    exact ⟨_, h.files_eq ht hr⟩

/-- **Calls build a forest**, failing ones included, if none asks for a project
below a project. -/
theorem isForest_performAll (calls : List Call) (hcalls : ∀ c ∈ calls, c.IsSpelled)
    (hkinds : ∀ project segments link, .resource project segments .project link ∉ calls) :
    ∃ a, Arena.empty.performAll calls = some a ∧ a.IsForest := by
  obtain ⟨a, ha, hholds⟩ := holds_empty.performAll calls
  rw [Tree.performAll_eq_applyAll Tree.isGrown_empty] at hholds
  refine ⟨a, ha, hholds.isForest (Tree.isBuilt_applyAll hcalls) fun r hr => ?_⟩
  refine ⟨not_imp_not.1 (Tree.kind_ne_project_of_applyAll hcalls hkinds hr), fun hnil => ?_⟩
  have hget := hholds.isGrown.unique r hr
  rw [Address.eq_ofProject_of_segments hnil] at hget
  exact hholds.isGrown.kind_of_root hget

/-- Calls of which one runs into a file, one into a folder, and one into a project
that is there already. -/
def clashingCalls : List Call := [
  .project "P" (.ofString "/ws"),
  .resource "P" ["a", "b.c"] .file .none,
  .resource "P" ["a", "b.c", "new", "x.c"] .file .none,
  .resource "P" ["a"] .file .none,
  .project "P" (.ofString "/other"),
  .resource "P" ["real", "l"] .folder (.symbolic (.ofString "/real") true)]

/-- Three of these calls fail, and the others make five resources. -/
theorem isForest_performAll_clashing :
    (∀ c ∈ clashingCalls, c.IsSpelled) ∧
      (∀ project segments link, .resource project segments .project link ∉ clashingCalls) ∧
      ∃ a, Arena.empty.performAll clashingCalls = some a ∧ a.IsForest ∧
        a.slots.map (fun s => (s.name, s.parent)) =
          [("P", none), ("a", some 0), ("b.c", some 1), ("real", some 0), ("l", some 3)] := by
  have hspelled : ∀ c ∈ clashingCalls, c.IsSpelled := by decide
  have hkinds (project segments link) :
      .resource project segments .project link ∉ clashingCalls := by
    simp [clashingCalls]
  have hslots : (Arena.empty.performAll clashingCalls).map
      (fun a => a.slots.map fun s => (s.name, s.parent)) =
        some [("P", none), ("a", some 0), ("b.c", some 1), ("real", some 0), ("l", some 3)] := by
    decide
  obtain ⟨a, ha, hforest⟩ := isForest_performAll clashingCalls hspelled hkinds
  rw [ha, Option.map_some, Option.some.injEq] at hslots
  exact ⟨hspelled, hkinds, a, ha, hforest, hslots⟩

end Arena

end BuildMarkers
