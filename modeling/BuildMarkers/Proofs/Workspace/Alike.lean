import BuildMarkers.Proofs.Workspace.Selection
import Mathlib.Data.List.Sort
/-!
# Trees that are alike

Two trees are alike if every address leads to resources of one kind in both of
them, with links that are the same and with equal spellings. In which order the
resources stand in the trees is left open, and so is the spelling of the targets
of links. Trees that are alike have equal listings and select the same resource
at every location, since each listing and each selection is known by what
addresses lead to.
-/

namespace BuildMarkers

namespace Link

variable {l m k : Link}

theorem same_linked {p q : Path} : (linked p).same (linked q) = true ↔ p.route = q.route :=
  decide_eq_true_iff

theorem same_symbolic {p q : Path} {present present' : Bool} :
    (symbolic p present).same (symbolic q present') = true ↔
      p.route = q.route ∧ present = present' := by
  rw [same, Bool.and_eq_true, decide_eq_true_iff, beq_iff_eq, Path.Same]

theorem same_symm (h : l.same m = true) : m.same l = true := by
  rcases same_cases h with rfl | ⟨p, q, hroute, rfl, rfl⟩ | ⟨p, q, present, hroute, rfl, rfl⟩
  · exact h
  · exact same_linked.2 hroute.symm
  · exact same_symbolic.2 ⟨hroute.symm, rfl⟩

theorem same_trans (h : l.same m = true) (h' : m.same k = true) : l.same k = true := by
  rcases same_cases h with rfl | ⟨p, q, hroute, rfl, rfl⟩ | ⟨p, q, present, hroute, rfl, rfl⟩
  · exact h'
  · rcases same_cases h' with rfl | ⟨_, q', hroute', hq, rfl⟩ | ⟨_, _, _, _, hq, -⟩
    · exact h
    · rw [← Link.linked.inj hq] at hroute'
      exact same_linked.2 (hroute.trans hroute')
    · cases hq
  · rcases same_cases h' with rfl | ⟨_, _, _, hq, -⟩ | ⟨_, q', _, hroute', hq, rfl⟩
    · exact h
    · cases hq
    · obtain ⟨rfl, rfl⟩ := Link.symbolic.inj hq
      exact same_symbolic.2 ⟨hroute.trans hroute', rfl⟩

theorem eq_none_iff_of_same (h : l.same m = true) : l = .none ↔ m = .none := by
  cases l <;> cases m <;> simp_all [same]

end Link

namespace Resource

variable {r s parent parent' : Resource} {name : String} {kind : Kind} {link link' : Link}

/-- The resources differ in the spelling of the target of their link at most. -/
structure Alike (r s : Resource) : Prop where
  address_eq : r.address = s.address
  kind_eq : r.kind = s.kind
  link_same : r.link.same s.link = true
  location_eq : r.location = s.location
  aliases_eq : r.aliases = s.aliases

theorem Alike.refl (r : Resource) : r.Alike r := ⟨rfl, rfl, Link.same_refl _, rfl, rfl⟩

theorem Alike.symm (h : r.Alike s) : s.Alike r :=
  ⟨h.address_eq.symm, h.kind_eq.symm, Link.same_symm h.link_same, h.location_eq.symm,
    h.aliases_eq.symm⟩

theorem Alike.spellings_eq (h : r.Alike s) : r.spellings = s.spellings := by
  rw [spellings, spellings, h.location_eq, h.aliases_eq]

theorem Alike.isFile_eq (h : r.Alike s) : r.isFile = s.isFile := by
  rw [isFile, isFile, h.kind_eq]

theorem Alike.isContainer_eq (h : r.Alike s) : r.isContainer = s.isContainer := by
  rw [isContainer, isContainer, h.kind_eq]

/-- **Children of containers that are alike are alike**, if their links are the
same. -/
theorem Alike.below (h : parent.Alike parent') (hlink : link.same link' = true) (name : String)
    (kind : Kind) : (parent.below name kind link).Alike (parent'.below name kind link') := by
  have hlocation : parent.locationOf name link = parent'.locationOf name link' :=
    Link.locationOf_congr hlink name h.location_eq
  have hbelow : parent.spellingsBelow name = parent'.spellingsBelow name := by
    rw [spellingsBelow, spellingsBelow, h.spellings_eq]
  refine ⟨congrArg (Address.child · name) h.address_eq, rfl, hlink, hlocation, ?_⟩
  change parent.aliasesOf name link (parent.locationOf name link) =
    parent'.aliasesOf name link' (parent'.locationOf name link')
  rw [hlocation]
  rcases Link.same_cases hlink with rfl | ⟨p, q, -, rfl, rfl⟩ | ⟨p, q, present, -, rfl, rfl⟩
  · simp only [aliasesOf, Link.aliasesAmong, hbelow]
  · rfl
  · cases parent'.locationOf name (.symbolic q present) with
    | none => rfl
    | some location => simp only [aliasesOf, Link.aliasesAmong, hbelow]

end Resource

namespace Tree

variable {t t' : Tree} {a : Address} {r s : Resource} {p : Resource → Bool}

/-- Every address leads to resources that are alike, or to none in either tree. -/
def Alike (t t' : Tree) : Prop := ∀ a, Option.Rel Resource.Alike (t.get? a) (t'.get? a)

namespace Alike

theorem of_exists (h : ∀ a r, t.get? a = some r → ∃ s, t'.get? a = some s ∧ r.Alike s)
    (h' : ∀ a s, t'.get? a = some s → ∃ r, t.get? a = some r) : t.Alike t' := by
  intro a
  cases hr : t.get? a with
  | some r =>
    obtain ⟨s, hs, halike⟩ := h a r hr
    rw [hs]
    exact .some halike
  | none =>
    cases hs : t'.get? a with
    | none => exact .none
    | some s =>
      obtain ⟨r, hr'⟩ := h' a s hs
      rw [hr] at hr'
      cases hr'

theorem exists_alike (h : t.Alike t') (hr : t.get? a = some r) :
    ∃ s, t'.get? a = some s ∧ r.Alike s := by
  have := h a
  rw [hr] at this
  cases hs : t'.get? a with
  | none =>
    rw [hs] at this
    cases this
  | some s =>
    rw [hs] at this
    cases this with
    | some halike => exact ⟨s, rfl, halike⟩

theorem symm (h : t.Alike t') : t'.Alike t := by
  intro a
  have hrel := h a
  generalize t.get? a = r at hrel ⊢
  generalize t'.get? a = s at hrel ⊢
  cases hrel with
  | some halike => exact .some halike.symm
  | none => exact .none

theorem isSome_eq (h : t.Alike t') (a : Address) : (t.get? a).isSome = (t'.get? a).isSome := by
  have hrel := h a
  generalize t.get? a = r at hrel ⊢
  generalize t'.get? a = s at hrel ⊢
  cases hrel <;> rfl

/-- What resources that are alike agree on, the trees agree on at every address. -/
theorem any_eq (h : t.Alike t') {p : Resource → Bool} (hp : ∀ r s : Resource, r.Alike s → p r = p s)
    (a : Address) : (t.get? a).any p = (t'.get? a).any p := by
  have hrel := h a
  generalize t.get? a = r at hrel ⊢
  generalize t'.get? a = s at hrel ⊢
  cases hrel with
  | some halike => exact hp _ _ halike
  | none => rfl

theorem isFile_eq (h : t.Alike t') : t.isFile = t'.isFile :=
  funext fun a => h.any_eq (fun _ _ halike => halike.isFile_eq) a

theorem hasProject_eq (h : t.Alike t') : t.hasProject = t'.hasProject :=
  funext fun _ => h.isSome_eq _

theorem isLinked_eq (h : t.Alike t') : t.isLinked = t'.isLinked := by
  funext a
  unfold isLinked
  congr 1
  funext b
  refine h.any_eq (fun r s halike => ?_) b
  simp only [ne_eq, Link.eq_none_iff_of_same halike.link_same]

/-! ## Listings -/

theorem projects_eq (h : t.Alike t') (ht : t.IsBuilt) (ht' : t'.IsBuilt) :
    t.projects = t'.projects :=
  List.Pairwise.eq_of_mem_iff ht.pairwise_projects ht'.pairwise_projects fun name => by
    rw [mem_projects, mem_projects, h.hasProject_eq]

theorem children_eq (h : t.Alike t') (ht : t.IsBuilt) (ht' : t'.IsBuilt) :
    t.children = t'.children :=
  funext fun a => List.Pairwise.eq_of_mem_iff (ht.pairwise_children a) (ht'.pairwise_children a)
    fun n => by rw [mem_children, mem_children, h.isSome_eq]

theorem files_eq (h : t.Alike t') (ht : t.IsBuilt) (ht' : t'.IsBuilt) : t.files = t'.files :=
  funext fun project => List.Pairwise.eq_of_mem_iff (ht.pairwise_files project)
    (ht'.pairwise_files project) fun a => by rw [ht.mem_files, ht'.mem_files, h.isFile_eq]

/-! ## Locations -/

theorem exists_foundAt (h : t.Alike t') (ht : t.IsBuilt) {spelling : Route}
    (hr : r ∈ t.foundAt spelling) : ∃ s ∈ t'.foundAt spelling, r.Alike s := by
  obtain ⟨hr, hspelling⟩ := List.mem_filter.1 hr
  obtain ⟨s, hs, halike⟩ := h.exists_alike (ht.isGrown.unique r hr)
  exact ⟨s, List.mem_filter.2 ⟨mem_of_get? hs, halike.spellings_eq ▸ hspelling⟩, halike⟩

theorem rank_eq (h : t.Alike t') (hr : r.Alike s) (preferred : String) :
    t.rank preferred r = t'.rank preferred s := by
  rw [rank, rank, hr.address_eq, h.isLinked_eq]

/-- **Resources that are alike are selected.** The ranks are the same in both
trees, so what comes before all others in one does so in the other. -/
theorem exists_select (h : t.Alike t') (ht : t.IsBuilt) (ht' : t'.IsBuilt)
    (hp : ∀ r s : Resource, r.Alike s → p r = p s) {preferred : String} {spelling : Route}
    (hr : t.select p preferred spelling = some r) :
    ∃ s, t'.select p preferred spelling = some s ∧ r.Alike s := by
  obtain ⟨hmem, hpr, hspelling, hbefore⟩ := ht.select_eq_some_iff.1 hr
  obtain ⟨s, hs, halike⟩ := h.exists_alike (ht.isGrown.unique r hmem)
  refine ⟨s, ht'.select_eq_some_iff.2 ⟨mem_of_get? hs, hp r s halike ▸ hpr,
    halike.spellings_eq ▸ hspelling, fun other hother hpother hfound hne => ?_⟩, halike⟩
  obtain ⟨r', hr', halike'⟩ := h.symm.exists_alike (ht'.isGrown.unique other hother)
  rw [← h.rank_eq halike, ← h.rank_eq halike'.symm]
  refine hbefore r' (mem_of_get? hr') (hp _ _ halike' ▸ hpother) (halike'.spellings_eq ▸ hfound) ?_
  rintro rfl
  -- one address cannot be that of two resources
  have hget := ht'.isGrown.unique other hother
  rw [halike'.address_eq, hs] at hget
  exact hne (Option.some.inj hget).symm

/-- So the same address is selected. -/
theorem map_select_eq (h : t.Alike t') (ht : t.IsBuilt) (ht' : t'.IsBuilt)
    (hp : ∀ r s : Resource, r.Alike s → p r = p s) (preferred : String) (spelling : Route) :
    (t.select p preferred spelling).map (·.address) =
      (t'.select p preferred spelling).map (·.address) := by
  have hle {t t' : Tree} (h : t.Alike t') (ht : t.IsBuilt) (ht' : t'.IsBuilt) {a : Address}
      (ha : (t.select p preferred spelling).map (·.address) = some a) :
      (t'.select p preferred spelling).map (·.address) = some a := by
    obtain ⟨r, hr, rfl⟩ := Option.map_eq_some_iff.1 ha
    obtain ⟨s, hs, halike⟩ := h.exists_select ht ht' hp hr
    rw [hs, halike.address_eq]
    rfl
  exact Option.ext fun a => ⟨hle h ht ht', hle h.symm ht' ht⟩

theorem fileAt_eq (h : t.Alike t') (ht : t.IsBuilt) (ht' : t'.IsBuilt) : t.fileAt = t'.fileAt :=
  funext fun preferred => funext fun spelling =>
    h.map_select_eq ht ht' (fun _ _ halike => halike.isFile_eq) preferred spelling

theorem containerAt_eq (h : t.Alike t') (ht : t.IsBuilt) (ht' : t'.IsBuilt) :
    t.containerAt = t'.containerAt :=
  funext fun preferred => funext fun spelling =>
    h.map_select_eq ht ht' (fun _ _ halike => halike.isContainer_eq) preferred spelling

end Alike

end Tree

end BuildMarkers
