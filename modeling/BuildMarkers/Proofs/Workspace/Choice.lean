import BuildMarkers.Proofs.Workspace.Selection
/-!
# The choice at a shared location

Several resources may lie at one location, and a file or a container is chosen among
them in an order that is told by the resources alone (`Tree.Precedes`): the preferred
project first, then what no link leads to, then the fewest segments, then the full path.
Full paths of two resources may be the same where a project has a slash in its name,
but not where they are equally deep, so of two resources of a tree one always precedes
the other. Hence the choice is the one that precedes all others (`Tree.IsChoice`), in
whatever order the tree has them (`Tree.isChoice_applyAll`).
-/

namespace BuildMarkers

namespace Tree

variable {t u : Tree} {a b : Address} {r s : Resource} {p : Resource → Bool} {suits : Kind → Prop}
  {preferred : String} {spelling : Route}

/-- The resource at the address, or one above it, is a link. -/
def IsThroughLink (t : Tree) (a : Address) : Prop :=
  ∃ q ∈ t.resources, q.link ≠ .none ∧ q.address.project = a.project ∧
    q.address.segments <+: a.segments

/-- The first resource is chosen rather than the second. -/
inductive Precedes (t : Tree) (preferred : String) (r s : Resource) : Prop
  /-- Only the first is in the preferred project. -/
  | project : r.address.project = preferred → s.address.project ≠ preferred →
      Precedes t preferred r s
  /-- Only the second is reached through a link. -/
  | unlinked : (r.address.project = preferred ↔ s.address.project = preferred) →
      ¬ t.IsThroughLink r.address → t.IsThroughLink s.address → Precedes t preferred r s
  /-- The first has fewer segments. -/
  | shorter : (r.address.project = preferred ↔ s.address.project = preferred) →
      (t.IsThroughLink r.address ↔ t.IsThroughLink s.address) →
      r.address.segments.length < s.address.segments.length → Precedes t preferred r s
  /-- The first has the lesser full path. -/
  | path : (r.address.project = preferred ↔ s.address.project = preferred) →
      (t.IsThroughLink r.address ↔ t.IsThroughLink s.address) →
      r.address.segments.length = s.address.segments.length →
        r.address.fullPath < s.address.fullPath →
      Precedes t preferred r s

/-- What is chosen at a spelling among the resources of a kind that suits. -/
structure IsChoice (t : Tree) (suits : Kind → Prop) (preferred : String) (spelling : Route)
    (choice : Option Address) : Prop where
  /-- Something is chosen exactly if the spelling leads to something that suits. -/
  isSome_iff : choice.isSome ↔ ∃ r ∈ t.resources, suits r.kind ∧ spelling ∈ r.spellings
  /-- It is the one that precedes all others. -/
  eq_some_iff : ∀ a, choice = some a ↔
    ∃ r ∈ t.resources, r.address = a ∧ suits r.kind ∧ spelling ∈ r.spellings ∧
      ∀ s ∈ t.resources, suits s.kind → spelling ∈ s.spellings → s ≠ r → t.Precedes preferred r s

/-! ## The order -/

theorem mem_chain : b ∈ a.chain ↔ b.project = a.project ∧ b.segments <+: a.segments := by
  rw [Address.chain, List.mem_map]
  constructor
  · rintro ⟨n, -, rfl⟩
    exact ⟨rfl, List.take_prefix n _⟩
  · rintro ⟨hproject, hsegments⟩
    refine ⟨b.segments.length, List.mem_range.2 (Nat.lt_succ_of_le hsegments.length_le), ?_⟩
    rw [← List.prefix_iff_eq_take.1 hsegments, ← hproject]

theorem IsGrown.isLinked_iff (h : t.IsGrown) : t.isLinked a = true ↔ t.IsThroughLink a := by
  simp only [isLinked, List.any_eq_true, Option.any_eq_true, decide_eq_true_eq, mem_chain,
    IsThroughLink]
  constructor
  · rintro ⟨b, hb, q, hq, hlink⟩
    obtain rfl := address_of_get? hq
    exact ⟨q, mem_of_get? hq, hlink, hb⟩
  · rintro ⟨q, hq, hlink, hb⟩
    exact ⟨q.address, hb, q, h.unique q hq, hlink⟩

/-- **The ranks are in the order of the resources.** -/
theorem IsGrown.before_iff (h : t.IsGrown) :
    (t.rank preferred r).Before (t.rank preferred s) ↔ t.Precedes preferred r s := by
  have hlinked : t.isLinked r.address = t.isLinked s.address ↔
      (t.IsThroughLink r.address ↔ t.IsThroughLink s.address) := by
    rw [← h.isLinked_iff, ← h.isLinked_iff, Bool.eq_iff_iff]
  have hforeign : decide (r.address.project ≠ preferred) = decide (s.address.project ≠ preferred) ↔
      (r.address.project = preferred ↔ s.address.project = preferred) := by
    rw [decide_eq_decide, not_iff_not]
  simp only [Rank.Before, rank, Bool.lt_iff, hforeign, hlinked, h.isLinked_iff, ← Bool.not_eq_true,
    decide_eq_true_eq, ne_eq, not_not]
  constructor
  · rintro (⟨hr, hs⟩ | ⟨hproject, (⟨hr, hs⟩ | ⟨hlink, (hlt | ⟨heq, hpath⟩)⟩)⟩)
    · exact .project hr hs
    · exact .unlinked hproject hr hs
    · exact .shorter hproject hlink hlt
    · exact .path hproject hlink heq hpath
  · rintro (⟨hr, hs⟩ | ⟨hproject, hr, hs⟩ | ⟨hproject, hlink, hlt⟩ |
      ⟨hproject, hlink, heq, hpath⟩)
    · exact .inl ⟨hr, hs⟩
    · exact .inr ⟨hproject, .inl ⟨hr, hs⟩⟩
    · exact .inr ⟨hproject, .inr ⟨hlink, .inl hlt⟩⟩
    · exact .inr ⟨hproject, .inr ⟨hlink, .inr ⟨heq, hpath⟩⟩⟩

/-- **Of two resources of a tree exactly one precedes the other.** -/
theorem IsBuilt.precedes_iff (h : t.IsBuilt) (hr : r ∈ t.resources) (hs : s ∈ t.resources)
    (hne : r ≠ s) : t.Precedes preferred r s ↔ ¬ t.Precedes preferred s r := by
  have hkey : (t.rank preferred r).key ≠ (t.rank preferred s).key := fun heq =>
    hne (h.eq_of_rank hr hs (Rank.key_injective heq))
  rw [← h.isGrown.before_iff, ← h.isGrown.before_iff, Rank.before_iff, Rank.before_iff, not_lt]
  exact ⟨le_of_lt, fun hle => lt_of_le_of_ne hle hkey⟩

theorem IsGrown.precedes_trans (h : t.IsGrown) {q : Resource} (hrs : t.Precedes preferred r s)
    (hsq : t.Precedes preferred s q) : t.Precedes preferred r q := by
  rw [← h.before_iff, Rank.before_iff] at *
  exact hrs.trans hsq

/-! ## The choice -/

/-- **What is selected is the choice.** -/
theorem IsBuilt.isChoice (h : t.IsBuilt) (hp : ∀ r : Resource, p r = true ↔ suits r.kind) :
    t.IsChoice suits preferred spelling ((t.select p preferred spelling).map (·.address)) := by
  constructor
  · rw [Option.isSome_map]
    constructor
    · intro hsome
      obtain ⟨r, hr⟩ := Option.isSome_iff_exists.1 hsome
      obtain ⟨hmem, hsuits, hspelling⟩ := of_select hr
      exact ⟨r, hmem, (hp r).1 hsuits, hspelling⟩
    · rintro ⟨r, hmem, hsuits, hspelling⟩
      exact select_isSome hmem ((hp r).2 hsuits) hspelling
  · intro a
    simp only [Option.map_eq_some_iff, h.select_eq_some_iff, h.isGrown.before_iff, hp]
    grind

/-- In another order of the resources each address has the same resource. -/
theorem IsBuilt.get?_eq_of_perm (h : t.IsBuilt) (hperm : u.resources.Perm t.resources) :
    u.get? = t.get? := by
  funext a
  cases hu : u.get? a with
  | some r =>
    rw [← address_of_get? hu]
    exact (h.isGrown.unique r (hperm.mem_iff.1 (mem_of_get? hu))).symm
  | none =>
    symm
    rw [← Option.not_isSome_iff_eq_none, get?_isSome_iff]
    rintro ⟨r, hr, haddress⟩
    have hsome : (u.get? a).isSome := get?_isSome_iff.2 ⟨r, hperm.mem_iff.2 hr, haddress⟩
    simp [hu] at hsome

/-- **The order of the resources has no say** in what is selected. -/
theorem IsBuilt.select_eq_of_perm (h : t.IsBuilt) (hperm : u.resources.Perm t.resources) :
    u.select = t.select := by
  have hlinked : u.isLinked = t.isLinked := by
    funext a
    simp only [isLinked, h.get?_eq_of_perm hperm]
  have hrank (preferred : String) (r : Resource) : u.rank preferred r = t.rank preferred r := by
    simp only [rank, hlinked]
  funext p preferred spelling
  ext r
  rw [h.select_eq_some_iff, select_eq_some_iff_of_rank]
  · simp only [hperm.mem_iff, hrank]
  · intro r hr s hs heq
    rw [hrank, hrank] at heq
    exact h.eq_of_rank (hperm.mem_iff.1 hr) (hperm.mem_iff.1 hs) heq

/-- **At a shared location the choice is strict.** In a tree that calls build, a file is found at
a spelling exactly if one lies there, and it is the one that precedes all others, and so for
the projects and folders. Of two resources exactly one precedes the other, and a tree with
the resources in another order gives the same choice everywhere. -/
theorem isChoice_applyAll {calls : List Call} (hcalls : ∀ call ∈ calls, call.IsSpelled) :
    let t := empty.applyAll calls
    (∀ preferred spelling, t.IsChoice (· = .file) preferred spelling (t.fileAt preferred spelling) ∧
      t.IsChoice (· ≠ .file) preferred spelling (t.containerAt preferred spelling)) ∧
    (∀ preferred, ∀ r ∈ t.resources, ∀ s ∈ t.resources, r ≠ s →
      (t.Precedes preferred r s ↔ ¬ t.Precedes preferred s r)) ∧
    (∀ preferred q r s, t.Precedes preferred q r → t.Precedes preferred r s →
      t.Precedes preferred q s) ∧
    ∀ u : Tree, u.resources.Perm t.resources →
      u.fileAt = t.fileAt ∧ u.containerAt = t.containerAt := by
  intro t
  have ht : t.IsBuilt := isBuilt_applyAll hcalls
  refine ⟨fun preferred spelling => ⟨ht.isChoice fun _ => Resource.isFile_iff,
    ht.isChoice fun _ => Resource.isContainer_iff⟩,
    fun preferred r hr s hs hne => ht.precedes_iff hr hs hne,
    fun preferred q r s hqr hrs => ht.isGrown.precedes_trans hqr hrs, fun u hperm => ?_⟩
  have hselect := ht.select_eq_of_perm hperm
  constructor
  · funext preferred spelling
    rw [fileAt, fileAt, hselect]
  · funext preferred spelling
    rw [containerAt, containerAt, hselect]

/-- Two files with one full path at one location, in projects of which the name of one goes on
as that of the other. -/
def overlappingCalls : List Call := [
  .project "a" (.ofString "/ws/a"),
  .resource "a" ["b", "x.c"] .file (.linked (.ofString "/lib/x.c")),
  .project "a/b" (.ofString "/ws/ab"),
  .resource "a/b" ["x.c"] .file (.linked (.ofString "/lib/x.c"))]

/-- The file with fewer segments is the choice of every other project. -/
theorem isChoice_applyAll_overlapping :
    (⟨"a", ["b", "x.c"]⟩ : Address).fullPath = (⟨"a/b", ["x.c"]⟩ : Address).fullPath ∧
    (empty.applyAll overlappingCalls).IsChoice (· = .file) "c"
      (.ofNames [.ofString "lib", .ofString "x.c"]) (some ⟨"a/b", ["x.c"]⟩) := by
  have hcalls : ∀ call ∈ overlappingCalls, call.IsSpelled := by decide
  have hfile : (empty.applyAll overlappingCalls).fileAt "c"
      (.ofNames [.ofString "lib", .ofString "x.c"]) = some ⟨"a/b", ["x.c"]⟩ := by decide
  refine ⟨by decide, ?_⟩
  rw [← hfile]
  exact ((isChoice_applyAll hcalls).1 _ _).1

end Tree

end BuildMarkers
