import BuildMarkers.Proofs.Workspace.Listing
import Mathlib.Algebra.Order.Ring.Nat
/-!
# Positions

In a built tree the resource above another one stands before it
(`IsBuilt.exists_earlier`), so every walk towards the top ends, and it ends at a
project (`IsBuilt.exists_project`). What has a position keeps it while the tree
grows. Down from the project, the names in the address of a resource lead to it
child by child (`IsGrown.descend?_eq`).
-/

namespace BuildMarkers

namespace Tree

variable {t t' : Tree} {a b : Address} {r s parent : Resource} {name project : String}
  {above names : List String} {i j : ℕ}

/-! ## Positions -/

/-- An address has one position, where no two resources have the same. -/
theorem position_unique (h : (t.resources.map (·.address)).Nodup) (hr : t.resources[i]? = some r)
    (hs : t.resources[j]? = some s) (heq : r.address = s.address) : i = j := by
  obtain ⟨hi, -⟩ := List.getElem?_eq_some_iff.1 hr
  refine (List.getElem?_inj (l := t.resources.map (·.address)) (by simpa using hi) h).1 ?_
  rw [List.getElem?_map, List.getElem?_map, hr, hs, Option.map_some, Option.map_some, heq]

/-- What is found at an address has a position. -/
theorem exists_position (hr : t.get? a = some r) : ∃ i : ℕ, t.resources[i]? = some r :=
  List.mem_iff_getElem?.1 (mem_of_get? hr)

/-- **What is above a resource has an earlier position**: it was there when the
resource was added. -/
theorem IsBuilt.exists_earlier (h : t.IsBuilt) (hr : t.resources[i]? = some r)
    (habove : r.address.parent? = some a) :
    ∃ j p, j < i ∧ t.resources[j]? = some p ∧ p.address = a ∧ p.isContainer = true := by
  induction h with
  | empty => simp [Tree.empty] at hr
  | @append t new _ _ hfits ih =>
    rcases Nat.lt_or_ge i t.resources.length with hi | hi
    · rw [List.getElem?_append_left hi] at hr
      obtain ⟨j, p, hj, hp, haddress, hcontainer⟩ := ih hr
      refine ⟨j, p, hj, ?_, haddress, hcontainer⟩
      rwa [List.getElem?_append_left (hj.trans hi)]
    · -- the resource is the one that was added, and its parent was there before
      obtain ⟨hlt, -⟩ := List.getElem?_eq_some_iff.1 hr
      rw [List.length_append, List.length_singleton] at hlt
      obtain rfl : i = t.resources.length := by omega
      rw [List.getElem?_concat_length, Option.some.injEq] at hr
      subst hr
      cases hfits with
      | root => cases habove
      | child hparent hcontainer _ =>
        obtain ⟨j, hj⟩ := exists_position hparent
        obtain ⟨hlt, -⟩ := List.getElem?_eq_some_iff.1 hj
        rw [Resource.below, Address.parent?_child, Option.some.injEq] at habove
        refine ⟨j, _, hlt, ?_, habove, hcontainer⟩
        rwa [List.getElem?_append_left hlt]

/-- The project of a resource has a position as well: it is at the top of the walk
from one resource to the one above it. -/
theorem IsBuilt.exists_project (h : t.IsBuilt) (hr : t.resources[i]? = some r) :
    ∃ j p, j ≤ i ∧ t.resources[j]? = some p ∧ p.address = .ofProject r.address.project ∧
      p.kind = .project := by
  generalize ha : r.address = a
  induction a using Address.childInduction generalizing i r with
  | project name =>
    have hget := h.isGrown.unique r (List.mem_of_getElem? hr)
    exact ⟨i, r, le_rfl, hr, ha, h.isGrown.kind_of_root (ha ▸ hget)⟩
  | child a n ih =>
    obtain ⟨j, p, hj, hp, haddress, -⟩ := h.exists_earlier hr (by rw [ha, Address.parent?_child])
    obtain ⟨k, root, hk, hroot⟩ := ih hp haddress
    exact ⟨k, root, by omega, hroot⟩

theorem getElem?_position (t : Tree) (a : Address) : t.resources[t.position a]? = t.get? a :=
  List.find?_eq_getElem?_findIdx.symm

/-- What is added at a free address is at the end. -/
theorem position_append_singleton (hfree : t.get? r.address = none) :
    position ⟨t.resources ++ [r]⟩ r.address = t.resources.length := by
  have hend : t.position r.address = t.resources.length :=
    List.findIdx_eq_length.2 fun s hs => by simpa using List.find?_eq_none.1 hfree s hs
  unfold position at hend ⊢
  rw [List.findIdx_append, hend]
  simp

/-- A position keeps what it has. -/
theorem Grows.getElem?_eq_some {i : ℕ} (h : t.Grows t') (hr : t.resources[i]? = some r) :
    t'.resources[i]? = some r := by
  obtain ⟨more, hmore⟩ := h
  obtain ⟨hlt, -⟩ := List.getElem?_eq_some_iff.1 hr
  rw [← hmore, List.getElem?_append_left hlt, hr]

/-- And a resource keeps its position. -/
theorem Grows.position_eq (h : t.Grows t') (ha : (t.get? a).isSome) :
    t'.position a = t.position a := by
  obtain ⟨more, hmore⟩ := h
  obtain ⟨r, hr, haddress⟩ := get?_isSome_iff.1 ha
  have hlt : t.position a < t.resources.length :=
    List.findIdx_lt_length_of_exists ⟨r, hr, by simpa using haddress⟩
  unfold position at hlt ⊢
  rw [← hmore, List.findIdx_append, if_pos hlt]

/-! ## Walks down -/

/-- The resource that the names lead down to from another one, child by child. -/
def descend? (t : Tree) (r : Resource) (names : List String) : Option Resource :=
  names.foldlM (fun r name => t.get? (r.address.child name)) r

/-- **Names lead down to the resource** that is found at the address with these
names. -/
theorem IsGrown.descend?_eq (ht : t.IsGrown) (hparent : t.get? ⟨project, above⟩ = some parent)
    (hr : t.get? ⟨project, above ++ names⟩ = some r) : t.descend? parent names = some r := by
  induction names using List.reverseRecOn generalizing r with
  | nil =>
    rw [List.append_nil, hparent] at hr
    exact hr
  | append_singleton names name ih =>
    rw [← List.append_assoc] at hr
    obtain ⟨q, hq⟩ := Option.isSome_iff_exists.1 (ht.isSome_of_append (Option.isSome_of_eq_some hr))
    have hwalk : t.descend? parent names = some q := ih hq
    have hstep : t.get? (q.address.child name) = some r := by
      rw [address_of_get? hq]
      exact hr
    rw [descend?] at hwalk ⊢
    rw [List.foldlM_append, hwalk]
    simpa using hstep

end Tree

end BuildMarkers
