import BuildMarkers.Proofs.Workspace.InPlace
import BuildMarkers.Workspace.Arena
import Mathlib.Algebra.Order.Sub.Basic
/-!
# Arenas hold trees

An arena holds a tree if its slots are the resources of the tree in their order,
and every number in it is the position of the resource that it stands for
(`Arena.Holds`). A call does to an arena what it does in place to the tree
(`Holds.perform`): so no number that a call follows is out of range, the arena
returns what the tree returns, and after any calls it still holds the tree
(`Holds.performAll`).
-/

namespace BuildMarkers

variable {t : Tree} {a : Arena} {s : Slot} {r parent : Resource} {b : Address} {name : String}
  {names : List String} {kind : Kind} {link : Link} {i j : ℕ}

/-! ## Maps from names -/

namespace NameMap

variable {m : NameMap} {n : String} {id : ℕ} {entries : List (String × ℕ)}

@[simp] theorem get?_empty (n : String) : empty.get? n = none := rfl

theorem lookup_cons_eq_ite (entry : String × ℕ) (entries : List (String × ℕ)) (n : String) :
    (entry :: entries).lookup n = if entry.1 = n then some entry.2 else entries.lookup n := by
  rw [List.lookup_cons]
  by_cases h : entry.1 = n
  · simp [h]
  · rw [if_neg h, beq_false_of_ne (Ne.symm h)]

theorem lookup_insertEntry (entries : List (String × ℕ)) (name : String) (id : ℕ) (n : String) :
    (insertEntry name id entries).lookup n = if name = n then some id else entries.lookup n := by
  induction entries with
  | nil => rw [insertEntry, lookup_cons_eq_ite]
  | cons entry rest ih =>
    rw [insertEntry]
    by_cases hlt : name < entry.1
    · rw [if_pos hlt, lookup_cons_eq_ite]
    · by_cases heq : entry.1 = name
      · rw [if_neg hlt, if_pos heq, lookup_cons_eq_ite, lookup_cons_eq_ite entry, heq]
        split_ifs <;> rfl
      · -- the entry is not for the new name, so it does not come before it in the result
        rw [if_neg hlt, if_neg heq, lookup_cons_eq_ite, lookup_cons_eq_ite, ih]
        by_cases hn : entry.1 = n
        · rw [if_pos hn, if_pos hn, if_neg fun h => heq (hn.trans h.symm)]
        · rw [if_neg hn, if_neg hn]

/-- **The name leads to the new number**, and the others lead to what they did. -/
theorem get?_insert (m : NameMap) (name : String) (id : ℕ) (n : String) :
    (m.insert name id).get? n = if name = n then some id else m.get? n :=
  lookup_insertEntry m.entries name id n

theorem mem_of_lookup (h : entries.lookup n = some id) : (n, id) ∈ entries := by
  induction entries with
  | nil => cases h
  | cons entry rest ih =>
    rw [lookup_cons_eq_ite] at h
    split_ifs at h with heq
    · rw [← heq, ← Option.some.inj h]
      exact List.mem_cons_self
    · exact List.mem_cons_of_mem _ (ih h)

/-- The entries are what the names lead to. -/
theorem mem_entries_iff : (n, id) ∈ m.entries ↔ m.get? n = some id := by
  refine ⟨fun h => ?_, mem_of_lookup⟩
  obtain ⟨entries, hsorted⟩ := m
  unfold get?
  induction entries with
  | nil => cases h
  | cons entry rest ih =>
    obtain ⟨hfirst, hrest⟩ := List.pairwise_cons.1 hsorted
    rw [lookup_cons_eq_ite]
    rcases List.mem_cons.1 h with rfl | h
    · rw [if_pos rfl]
    · rw [if_neg (hfirst _ h).ne]
      exact ih hrest h

theorem eq_empty_of_get? (h : ∀ n, m.get? n = none) : m = empty := by
  obtain ⟨entries, hsorted⟩ := m
  cases entries with
  | nil => rfl
  | cons entry rest =>
    have hfirst := h entry.1
    rw [get?, lookup_cons_eq_ite, if_pos rfl] at hfirst
    cases hfirst

end NameMap

/-! ## Positions as numbers -/

namespace Tree

variable {a : Address}

/-- The number of what is at the address: its position. -/
def number? (t : Tree) (a : Address) : Option ℕ := (t.get? a).map fun _ => t.position a

theorem number?_of_get? (h : t.get? a = some r) : t.number? a = some (t.position a) := by
  rw [number?, h, Option.map_some]

theorem number?_eq_none_iff : t.number? a = none ↔ t.get? a = none := Option.map_eq_none_iff

/-- Numbers stay while the tree grows, and what is added has the next one. -/
theorem number?_append (hfree : t.get? r.address = none) (a : Address) :
    number? ⟨t.resources ++ [r]⟩ a =
      if r.address = a then some t.resources.length else t.number? a := by
  by_cases h : r.address = a
  · subst h
    rw [if_pos rfl, number?_of_get? (get?_append_self hfree), position_append_singleton hfree]
  · rw [if_neg h, number?, number?, get?_append_singleton, if_neg h, Option.or_none]
    cases hget : t.get? a with
    | none => rfl
    | some p =>
      have hgrows : t.Grows ⟨t.resources ++ [r]⟩ := List.prefix_append ..
      rw [Option.map_some, Option.map_some, hgrows.position_eq (Option.isSome_of_eq_some hget)]

/-- A number that an address has is kept. -/
theorem number?_append_of_eq_some (hfree : t.get? r.address = none) (h : t.number? a = some i) :
    number? ⟨t.resources ++ [r]⟩ a = some i := by
  rw [number?_append hfree, if_neg, h]
  rintro rfl
  rw [number?_eq_none_iff.2 hfree] at h
  cases h

/-- What is added has nothing below it. -/
theorem IsGrown.number?_child_of_free (ht : t.IsGrown) (hfree : t.get? r.address = none)
    (n : String) : number? ⟨t.resources ++ [r]⟩ (r.address.child n) = none := by
  rw [number?_append hfree, if_neg (Address.ne_child _ _), number?_eq_none_iff]
  exact ht.isBare_of_free hfree n

theorem number?_eq_some_iff (hnodup : (t.resources.map (·.address)).Nodup) :
    t.number? a = some i ↔ ∃ r, t.resources[i]? = some r ∧ r.address = a := by
  have hposition := getElem?_position t a
  constructor
  · intro h
    obtain ⟨r, hr, rfl⟩ := Option.map_eq_some_iff.1 h
    exact ⟨r, hposition.trans hr, Tree.address_of_get? hr⟩
  · rintro ⟨r, hr, rfl⟩
    obtain ⟨s, hs⟩ := Option.isSome_iff_exists.1
      (get?_isSome_iff.2 ⟨r, List.mem_of_getElem? hr, rfl⟩)
    rw [number?_of_get? hs,
      position_unique hnodup (hposition.trans hs) hr (address_of_get? hs)]

/-- What has an address stands at its number. -/
theorem getElem?_of_number? (hr : t.get? a = some r) (hi : t.number? a = some i) :
    t.resources[i]? = some r := by
  obtain rfl : t.position a = i := Option.some.inj ((number?_of_get? hr).symm.trans hi)
  exact (getElem?_position t a).trans hr

end Tree

/-! ## What an arena holds -/

/-- The slot is the resource of the tree, with numbers for addresses. -/
structure Slot.Holds (s : Slot) (t : Tree) (r : Resource) : Prop where
  name_eq : s.name = r.address.name
  kind_eq : s.kind = r.kind
  link_eq : s.link = r.link
  location_eq : s.location = r.location
  aliases_eq : s.aliases = r.aliases
  parent_eq : s.parent = r.address.parent?.bind t.number?
  project_eq : some s.project = t.number? (.ofProject r.address.project)
  children_eq : ∀ n, s.children.get? n = t.number? (r.address.child n)

/-- The slots of the arena are the resources of the tree, in their order. -/
structure Arena.Holds (a : Arena) (t : Tree) : Prop where
  isGrown : t.IsGrown
  nodup : (t.resources.map (·.address)).Nodup
  length_eq : a.slots.length = t.resources.length
  slot : ∀ {i : ℕ} {r : Resource}, t.resources[i]? = some r →
    ∃ s, a.slots[i]? = some s ∧ s.Holds t r
  projects_eq : ∀ name, a.projects.get? name = t.number? (.ofProject name)

namespace Arena

theorem holds_empty : empty.Holds .empty where
  isGrown := Tree.isGrown_empty
  nodup := List.nodup_nil
  length_eq := rfl
  slot := by simp [Tree.empty]
  projects_eq := fun _ => rfl

/-- What stands at a number is found at its address. -/
theorem Holds.get?_address (h : a.Holds t) (hr : t.resources[i]? = some r) :
    t.get? r.address = some r :=
  h.isGrown.unique r (List.mem_of_getElem? hr)

/-- And the address has that number. -/
theorem Holds.number?_address (h : a.Holds t) (hr : t.resources[i]? = some r) :
    t.number? r.address = some i :=
  (Tree.number?_eq_some_iff h.nodup).2 ⟨r, hr, rfl⟩

/-! ## One more slot -/

/-- The number of the resource above, and that of the project, stay as they are when a
resource is added; so the slot holds what it did if it has the children of now. -/
theorem Holds.slot_append (h : a.Holds t) (hr : t.resources[i]? = some r) (hs : s.Holds t r)
    {new : Resource} (hfree : t.get? new.address = none) {children : NameMap}
    (hchildren : ∀ n, children.get? n =
      Tree.number? ⟨t.resources ++ [new]⟩ (r.address.child n)) :
    Slot.Holds { s with children } ⟨t.resources ++ [new]⟩ r where
  name_eq := hs.name_eq
  kind_eq := hs.kind_eq
  link_eq := hs.link_eq
  location_eq := hs.location_eq
  aliases_eq := hs.aliases_eq
  parent_eq := by
    rw [hs.parent_eq]
    cases habove : r.address.parent? with
    | none => rfl
    | some b =>
      have hget : t.get? (b.child r.address.name) = some r := by
        rw [← Address.parent?_eq_some_iff.1 habove]
        exact h.get?_address hr
      obtain ⟨p, hp, -⟩ := h.isGrown.exists_above hget
      have hnumber := Tree.number?_of_get? hp
      exact hnumber.trans (Tree.number?_append_of_eq_some hfree hnumber).symm
  project_eq := (Tree.number?_append_of_eq_some hfree hs.project_eq.symm).symm
  children_eq := hchildren

/-- **An arena with one more slot holds the tree with one more resource.** -/
theorem Holds.append (h : a.Holds t) {new : Resource} (hfree : t.get? new.address = none)
    (hplaced : t.Placed new) {slots : List Slot} {projects : NameMap}
    (hlength : slots.length = t.resources.length + 1)
    (hold : ∀ {i : ℕ} {r : Resource}, t.resources[i]? = some r →
      ∃ s, slots[i]? = some s ∧ s.Holds ⟨t.resources ++ [new]⟩ r)
    (hnew : ∃ s, slots[t.resources.length]? = some s ∧ s.Holds ⟨t.resources ++ [new]⟩ new)
    (hprojects : ∀ n, projects.get? n =
      Tree.number? ⟨t.resources ++ [new]⟩ (.ofProject n)) :
    Holds ⟨slots, projects⟩ ⟨t.resources ++ [new]⟩ where
  isGrown := h.isGrown.append hfree hplaced
  nodup := Tree.nodup_append h.nodup hfree
  length_eq := by simpa using hlength
  slot := by
    intro i r hr
    rcases Nat.lt_trichotomy i t.resources.length with hi | rfl | hi
    · exact hold (by rwa [List.getElem?_append_left hi] at hr)
    · obtain rfl : new = r := by simpa using hr
      exact hnew
    · rw [List.getElem?_eq_none (by simpa using hi)] at hr
      cases hr
  projects_eq := hprojects

theorem Holds.putProject (h : a.Holds t) (name : String) (location : Path) :
    (a.putProject name location).1 = (t.putProject name location).1 ∧
      (a.putProject name location).2.Holds (t.putProject name location).2 := by
  unfold Arena.putProject Tree.putProject
  have hprojects := h.projects_eq name
  cases hroot : t.get? (.ofProject name) with
  | some root =>
    rw [Tree.number?_of_get? hroot] at hprojects
    simp [hprojects, Tree.hasProject, hroot, h]
  | none =>
    rw [Tree.number?_eq_none_iff.2 hroot] at hprojects
    have hfree : t.get? (Resource.root name location.location).address = none := hroot
    simp only [hprojects, Tree.hasProject, hroot, Option.isSome_none, Bool.false_eq_true, if_false,
      h.length_eq, true_and]
    refine h.append hfree (.inl ⟨rfl, rfl⟩) (by simp [h.length_eq]) ?_ ?_ fun n => ?_
    · intro i r hr
      obtain ⟨s, hs, hslot⟩ := h.slot hr
      have hlt : i < a.slots.length := (List.getElem?_eq_some_iff.1 hs).1
      refine ⟨s, by rwa [List.getElem?_append_left hlt], h.slot_append hr hslot hfree fun n => ?_⟩
      -- a project is nobody's child
      rw [hslot.children_eq, Tree.number?_append hfree, if_neg]
      exact fun heq => Address.segments_child_ne_nil (congrArg Address.segments heq).symm
    · refine ⟨_, by rw [← h.length_eq, List.getElem?_concat_length], ?_⟩
      exact {
        name_eq := rfl
        kind_eq := rfl
        link_eq := rfl
        location_eq := rfl
        aliases_eq := rfl
        parent_eq := rfl
        project_eq := by
          rw [Tree.number?_append hfree, ← h.length_eq]
          exact (if_pos rfl).symm
        children_eq := fun n => (h.isGrown.number?_child_of_free hfree n).symm }
    · rw [NameMap.get?_insert, Tree.number?_append hfree, h.projects_eq]
      simp [Resource.root, Address.ofProject]

/-- **A child is added to the arena as it is to the tree.** -/
theorem Holds.push (h : a.Holds t) (hparent : t.get? parent.address = some parent)
    (hcontainer : parent.isContainer = true) (hi : t.number? parent.address = some i)
    (hfree : t.get? (parent.address.child name) = none) (kind : Kind) (link : Link) :
    ∃ a', a.push i name kind link = some (t.resources.length, a') ∧
      a'.Holds (t.push parent name kind link) := by
  have hp := Tree.getElem?_of_number? hparent hi
  obtain ⟨above, habove, hslot⟩ := h.slot hp
  have hlt : i < a.slots.length := (List.getElem?_eq_some_iff.1 habove).1
  have hnew : t.get? (parent.below name kind link).address = none := hfree
  refine ⟨_, by simp only [Arena.push, habove, h.length_eq]; rfl, ?_⟩
  refine h.append hnew (.inr ⟨parent, name, hparent, hcontainer, rfl⟩) (by simp [h.length_eq])
    ?_ ?_ fun n => ?_
  · intro k r hr
    obtain ⟨s, hs, hs'⟩ := h.slot hr
    have hk : k < a.slots.length := (List.getElem?_eq_some_iff.1 hs).1
    rw [List.getElem?_modify, List.getElem?_append_left hk, hs]
    by_cases hik : i = k
    · -- the parent has one more child
      subst hik
      obtain rfl : parent = r := Option.some.inj (hp.symm.trans hr)
      refine ⟨_, by simp only [if_pos, Option.map_eq_map, Option.map_some]; rfl,
        h.slot_append hr hs' hnew fun n => ?_⟩
      rw [NameMap.get?_insert, hs'.children_eq, Tree.number?_append hnew]
      simp [Resource.below, Address.child]
    · refine ⟨s, by simp [hik], h.slot_append hr hs' hnew fun n => ?_⟩
      rw [hs'.children_eq, Tree.number?_append hnew, if_neg]
      exact fun heq => hik (Tree.position_unique h.nodup hp hr (Address.child_injective heq).1)
  · refine ⟨_, by
      rw [List.getElem?_modify, ← h.length_eq, List.getElem?_concat_length]
      simp only [if_neg hlt.ne, Option.map_eq_map, Option.map_some]
      rfl, ?_⟩
    exact {
      name_eq := by simp [Resource.below]
      kind_eq := rfl
      link_eq := rfl
      location_eq := by simp [hslot.location_eq, Resource.below, Resource.locationOf]
      aliases_eq := by
        simp [hslot.location_eq, hslot.aliases_eq, Resource.below, Resource.locationOf,
          Resource.aliasesOf, Resource.spellingsBelow, Resource.spellings]
      parent_eq := by
        rw [Resource.below, Address.parent?_child, Option.bind_some]
        exact (Tree.number?_append_of_eq_some hnew hi).symm
      project_eq := (Tree.number?_append_of_eq_some hnew hslot.project_eq.symm).symm
      children_eq := fun n => (h.isGrown.number?_child_of_free hnew n).symm }
  · rw [h.projects_eq, Tree.number?_append hnew, if_neg]
    exact fun heq => Address.segments_child_ne_nil (congrArg Address.segments heq)

/-! ## Calls -/

theorem Holds.putFolders (h : a.Holds t) {project : String} {above : List String}
    (hparent : t.get? ⟨project, above⟩ = some parent) (hcontainer : parent.isContainer = true)
    (hi : t.number? ⟨project, above⟩ = some i) (names : List String) :
    ∃ a', a.putFolders project above i names = some ((t.putFolders parent names).1.map fun r =>
        (t.putFolders parent names).2.position r.address, a') ∧
      a'.Holds (t.putFolders parent names).2 := by
  induction names generalizing a t parent above i with
  | nil =>
    refine ⟨a, ?_, h⟩
    rw [Tree.number?_of_get? hparent, ← Tree.address_of_get? hparent] at hi
    rw [Arena.putFolders, Tree.putFolders, ← Option.some.inj hi]
    rfl
  | cons name names ih =>
    have haddress := Tree.address_of_get? hparent
    have hbelow : parent.address.child name = ⟨project, above ++ [name]⟩ := by
      rw [haddress]
      rfl
    obtain ⟨s, hs, hslot⟩ := h.slot (Tree.getElem?_of_number? hparent hi)
    have hchildren := hslot.children_eq name
    rw [Arena.putFolders, Tree.putFolders, hs]
    cases hchild : t.get? (parent.address.child name) with
    | none =>
      rw [Tree.number?_eq_none_iff.2 hchild] at hchildren
      rw [← haddress] at hparent hi
      obtain ⟨a', hpush, h'⟩ := h.push hparent hcontainer hi hchild .folder .none
      have hnew : (t.push parent name .folder .none).get? ⟨project, above ++ [name]⟩ =
          some (parent.below name .folder .none) := hbelow ▸ Tree.get?_push_self hchild
      simp only [Option.bind_eq_bind, Option.bind_some, hchildren, hpush]
      refine ih h' hnew rfl ?_
      rw [Tree.number?_of_get? hnew, ← hbelow]
      exact congrArg some
        (Tree.position_append_singleton (r := parent.below name .folder .none) hchild)
    | some r =>
      obtain ⟨j, hj⟩ : ∃ j, t.number? (parent.address.child name) = some j :=
        ⟨_, Tree.number?_of_get? hchild⟩
      rw [hj] at hchildren
      obtain ⟨s', hs', hslot'⟩ := h.slot (Tree.getElem?_of_number? hchild hj)
      have hfile : s'.kind = .file ↔ r.isFile = true := by
        rw [hslot'.kind_eq, Resource.isFile_iff]
      simp only [Option.bind_eq_bind, Option.bind_some, hchildren, hs', hfile]
      rw [hbelow] at hchild hj
      split_ifs with hr
      · rw [Tree.address_of_get? hchild]
        exact ⟨a, rfl, h⟩
      · exact ih h hchild (by simpa using hr) hj

theorem Holds.putChild (h : a.Holds t) (hparent : t.get? parent.address = some parent)
    (hcontainer : parent.isContainer = true) (hi : t.number? parent.address = some i)
    (name : String) (kind : Kind) (link : Link) :
    ∃ a', a.putChild (parent.address.child name) i name kind link =
        some ((t.putChild parent name kind link).1, a') ∧
      a'.Holds (t.putChild parent name kind link).2 := by
  obtain ⟨s, hs, hslot⟩ := h.slot (Tree.getElem?_of_number? hparent hi)
  have hchildren := hslot.children_eq name
  rw [Arena.putChild, Tree.putChild, hs]
  cases hchild : t.get? (parent.address.child name) with
  | none =>
    rw [Tree.number?_eq_none_iff.2 hchild] at hchildren
    obtain ⟨a', hpush, h'⟩ := h.push hparent hcontainer hi hchild kind link
    simp only [Option.bind_eq_bind, Option.bind_some, hchildren, hpush]
    exact ⟨a', rfl, h'⟩
  | some r =>
    have hnumber := Tree.number?_of_get? hchild
    rw [hnumber] at hchildren
    obtain ⟨s', hs', hslot'⟩ := h.slot (Tree.getElem?_of_number? hchild hnumber)
    simp only [Option.bind_eq_bind, Option.bind_some, hchildren, hs', hslot'.kind_eq,
      hslot'.link_eq, Tree.address_of_get? hchild]
    split_ifs
    · exact ⟨a, rfl, h⟩
    · exact ⟨a, rfl, h⟩

/-- **A call does to the arena what it does to the tree**, and returns the same. -/
theorem Holds.perform (h : a.Holds t) (call : Call) :
    ∃ a', a.perform call = some ((t.perform call).1, a') ∧ a'.Holds (t.perform call).2 := by
  cases call with
  | project name location =>
    obtain ⟨hresult, h'⟩ := h.putProject name location
    exact ⟨_, by rw [Arena.perform, ← Prod.eta (a.putProject name location), hresult]; rfl, h'⟩
  | resource project segments kind link =>
    have hprojects := h.projects_eq project
    rw [Arena.perform, Tree.perform, Arena.put, Tree.put]
    cases hroot : t.get? (.ofProject project) with
    | none =>
      rw [Tree.number?_eq_none_iff.2 hroot] at hprojects
      rw [hprojects]
      exact ⟨a, rfl, h⟩
    | some root =>
      have hnumber := Tree.number?_of_get? hroot
      rw [hprojects, hnumber]
      rcases List.eq_nil_or_concat' segments with rfl | ⟨above, name, rfl⟩
      · exact ⟨a, rfl, h⟩
      · simp only [List.getLast?_concat, List.dropLast_concat]
        obtain ⟨a', hfolders, h'⟩ :=
          h.putFolders hroot (h.isGrown.isContainer_of_root hroot) hnumber above
        simp only [hfolders, Option.bind_eq_bind, Option.bind_some]
        rcases hput : t.putFolders root above with ⟨e | parent, u⟩
        · rw [hput] at h'
          exact ⟨a', rfl, h'⟩
        · rw [hput] at h'
          have hmake : t.makeFolders root above = .ok (u, parent) := by
            rw [Tree.makeFolders_eq, hput]
            rfl
          have haddress := Tree.address_of_get? hroot
          obtain ⟨-, -, hcontainer, hparent, -⟩ := Tree.makeFolders_eq_ok h.isGrown
            (haddress ▸ hroot) (h.isGrown.isContainer_of_root hroot) hmake
          have hlast : (⟨project, above ++ [name]⟩ : Address) = parent.address.child name := by
            rw [Tree.address_of_get? hparent, haddress]
            rfl
          rw [← Tree.address_of_get? hparent] at hparent
          simp only [Except.map, hlast]
          exact h'.putChild hparent hcontainer (Tree.number?_of_get? hparent) name kind link

/-- **After any calls the arena holds the tree** that they make, and no number that they
follow is out of range. -/
theorem Holds.performAll (h : a.Holds t) (calls : List Call) :
    ∃ a', a.performAll calls = some a' ∧ a'.Holds (t.performAll calls) := by
  induction calls generalizing a t with
  | nil => exact ⟨a, rfl, h⟩
  | cons call calls ih =>
    obtain ⟨a', hcall, h'⟩ := h.perform call
    rw [Arena.performAll, List.foldlM_cons, hcall]
    exact ih h'

end Arena

end BuildMarkers
