import BuildMarkers.Proofs.Workspace.Listing
import Mathlib.Data.List.MinMax
import Mathlib.Data.Prod.Lex
/-!
# Selecting at a shared location

Of several resources to which a spelling leads the least one is selected in the
order of ranks (`select_eq_argmin`). The order is linear, and no two resources of
a tree have one rank: full paths may coincide where the name of a project has a
slash in it, but not between addresses of one depth. So the resource selected is
before all others (`IsBuilt.select_eq_some_iff`), and in which order they stand in
the tree has no part in it.
-/

namespace BuildMarkers

namespace Rank

/-- The rank as an element of a linear order. -/
def key (r : Rank) : Bool ×ₗ Bool ×ₗ ℕ ×ₗ String :=
  toLex (r.foreign, toLex (r.linked, toLex (r.depth, r.fullPath)))

theorem before_iff {a b : Rank} : a.Before b ↔ a.key < b.key := by
  simp [Before, key, Prod.Lex.toLex_lt_toLex]

theorem key_injective : Function.Injective key := by
  intro a b h
  cases a
  cases b
  simpa [key] using h

end Rank

namespace Tree

variable {t : Tree} {a : Address} {r s : Resource} {p : Resource → Bool} {preferred : String}
  {spelling : Route}

theorem mem_filter_foundAt : r ∈ (t.foundAt spelling).filter p ↔
    r ∈ t.resources ∧ spelling ∈ r.spellings ∧ p r = true := by
  rw [List.mem_filter, foundAt, List.mem_filter, List.contains_iff_mem, and_assoc]

/-- **The first of the least resources is selected.** -/
theorem select_eq_argmin (t : Tree) (p : Resource → Bool) (preferred : String) (spelling : Route) :
    t.select p preferred spelling =
      ((t.foundAt spelling).filter p).argmin fun r => (t.rank preferred r).key := by
  rw [select, List.argmin]
  congr 1
  funext best r
  cases best with
  | none => rfl
  | some b =>
    simp only [List.argAux]
    exact if_congr Rank.before_iff rfl rfl

/-- **What is selected is among what the spelling leads to.** -/
theorem of_select (h : t.select p preferred spelling = some r) :
    r ∈ t.resources ∧ p r = true ∧ spelling ∈ r.spellings := by
  rw [select_eq_argmin] at h
  obtain ⟨hr, hspelling, hp⟩ := mem_filter_foundAt.1 (List.argmin_mem h)
  exact ⟨hr, hp, hspelling⟩

theorem select_isSome (hr : r ∈ t.resources) (hp : p r = true)
    (hspelling : spelling ∈ r.spellings) :
    (t.select p preferred spelling).isSome := by
  rw [select_eq_argmin, Option.isSome_iff_ne_none, ne_eq, List.argmin_eq_none]
  exact List.ne_nil_of_mem (mem_filter_foundAt.2 ⟨hr, hspelling, hp⟩)

/-- **No two resources have one rank.** -/
theorem IsBuilt.eq_of_rank (h : t.IsBuilt) (hr : r ∈ t.resources) (hs : s ∈ t.resources)
    (heq : t.rank preferred r = t.rank preferred s) : r = s := by
  simp only [rank, Rank.mk.injEq] at heq
  obtain ⟨-, -, hdepth, hpath⟩ := heq
  have haddress : r.address = s.address :=
    Address.eq_of_fullPath (fun n hn => (h.isSegment hr n hn).slash_notMem)
      (fun n hn => (h.isSegment hs n hn).slash_notMem) hdepth hpath
  have hget := h.isGrown.unique r hr
  rw [haddress, h.isGrown.unique s hs] at hget
  exact (Option.some.inj hget).symm

/-- Where ranks tell resources apart, the one selected is before all others to which the
spelling leads. -/
theorem select_eq_some_iff_of_rank
    (hrank : ∀ r ∈ t.resources, ∀ s ∈ t.resources,
      t.rank preferred r = t.rank preferred s → r = s) :
    t.select p preferred spelling = some r ↔
      r ∈ t.resources ∧ p r = true ∧ spelling ∈ r.spellings ∧
        ∀ s ∈ t.resources, p s = true → spelling ∈ s.spellings → s ≠ r →
          (t.rank preferred r).Before (t.rank preferred s) := by
  rw [select_eq_argmin, List.argmin_eq_some_iff]
  constructor
  · rintro ⟨hr, hleast, -⟩
    obtain ⟨hmem, hspelling, hp⟩ := mem_filter_foundAt.1 hr
    refine ⟨hmem, hp, hspelling, fun s hs hps hsp hne => Rank.before_iff.2 ?_⟩
    have hle := hleast s (mem_filter_foundAt.2 ⟨hs, hsp, hps⟩)
    refine lt_of_le_of_ne hle fun heq => hne ?_
    exact (hrank r hmem s hs (Rank.key_injective heq)).symm
  · rintro ⟨hmem, hp, hspelling, hbefore⟩
    have hlt {s : Resource} (hs : s ∈ (t.foundAt spelling).filter p) (hne : s ≠ r) :
        (t.rank preferred r).key < (t.rank preferred s).key := by
      obtain ⟨hs, hsp, hps⟩ := mem_filter_foundAt.1 hs
      exact Rank.before_iff.1 (hbefore s hs hps hsp hne)
    refine ⟨mem_filter_foundAt.2 ⟨hmem, hspelling, hp⟩, fun s hs => ?_, fun s hs hle => ?_⟩
    · rcases eq_or_ne s r with rfl | hne
      · exact le_rfl
      · exact (hlt hs hne).le
    · rcases eq_or_ne s r with rfl | hne
      · exact le_rfl
      · exact absurd hle (hlt hs hne).not_ge

/-- **The resource that is selected is before all others** to which the spelling
leads. -/
theorem IsBuilt.select_eq_some_iff (h : t.IsBuilt) :
    t.select p preferred spelling = some r ↔
      r ∈ t.resources ∧ p r = true ∧ spelling ∈ r.spellings ∧
        ∀ s ∈ t.resources, p s = true → spelling ∈ s.spellings → s ≠ r →
          (t.rank preferred r).Before (t.rank preferred s) :=
  select_eq_some_iff_of_rank fun _ hr _ hs => h.eq_of_rank hr hs

end Tree

end BuildMarkers
