import BuildMarkers.Proofs.Workspace.Rearranged
import BuildMarkers.Resolution.Resolver
/-!
# Resolution in trees that are alike

A reference means the same in trees that are alike (`resolve_eq_of_alike`): each
rule asks a tree for its listings and for what it selects at a location, and these
are equal. So the order in which a workspace was put together has no part in what
references mean (`resolve_perm`).
-/

namespace BuildMarkers

namespace Resolver

open BuildMarkers.Tree

variable {t t' : Tree} {rule : CaseRule}

theorem project?_eq_of_alike (h : t.Alike t') (ht : t.IsBuilt) (ht' : t'.IsBuilt) (name : String) :
    project? rule t name = project? rule t' name := by
  rw [project?, project?, h.hasProject_eq, h.projects_eq ht ht']

theorem child?_eq_of_alike (h : t.Alike t') (ht : t.IsBuilt) (ht' : t'.IsBuilt) (a : Address)
    (name : String) : child? rule t a name = child? rule t' a name := by
  rw [child?, child?, h.isSome_eq, h.children_eq ht ht']

theorem walk?_eq_of_alike (h : t.Alike t') (ht : t.IsBuilt) (ht' : t'.IsBuilt) (start : Address)
    (segments : List String) : walk? rule t start segments = walk? rule t' start segments := by
  have hstep : step rule t = step rule t' := by
    funext here segment
    cases here with
    | workspace => simp only [step, project?_eq_of_alike h ht ht']
    | resource a => simp only [step, child?_eq_of_alike h ht ht']
  rw [walk?, walk?, hstep]

/-- **A reference means the same in trees that are alike.** -/
theorem resolve_eq_of_alike (h : t.Alike t') (ht : t.IsBuilt) (ht' : t'.IsBuilt)
    (resolver : Resolver) (d : Disk) (site : Site) (ref : Reference) :
    resolver.resolve t d site ref = resolver.resolve t' d site ref := by
  have hfile (r : Route) :
      t.fileAtLocation d site.project r = t'.fileAtLocation d site.project r := by
    rw [fileAtLocation, fileAtLocation, h.fileAt_eq ht ht']
  have hcontainer (r : Route) :
      t.containerAtLocation d site.project r = t'.containerAtLocation d site.project r := by
    rw [containerAtLocation, containerAtLocation, h.containerAt_eq ht ht']
  have habsolute (r : Route) : resolveAbsolute t d site r = resolveAbsolute t' d site r := by
    rw [resolveAbsolute, resolveAbsolute, hfile]
  have hopaque : resolver.resolveOpaque t d site ref = resolver.resolveOpaque t' d site ref := by
    simp only [resolveOpaque, resolveRelative, search, hfile, hcontainer,
      walk?_eq_of_alike h ht ht', h.isFile_eq, h.files_eq ht ht']
  simp only [resolve, habsolute, hopaque]

/-- **Resolution does not depend on the order of calls.** Calls that succeed in two
orders make trees of the same resources, and every reference means the same in
both. -/
theorem resolve_perm {calls calls' : List Call} (hcalls : ∀ c ∈ calls, c.IsSpelled)
    (hperm : calls.Perm calls') (ht : ofCalls calls = .ok t) (ht' : ofCalls calls' = .ok t') :
    (t.resources.map (·.address)).Perm (t'.resources.map (·.address)) ∧
    (∀ a, Option.Rel Resource.Alike (t.get? a) (t'.get? a)) ∧
    (∀ spelling a, (∃ r ∈ t.foundAt spelling, r.address = a) ↔
      ∃ r ∈ t'.foundAt spelling, r.address = a) ∧
    ∀ (resolver : Resolver) (d : Disk) (site : Site) (ref : Reference),
      resolver.resolve t d site ref = resolver.resolve t' d site ref := by
  have hmeets := meets_ofCalls hcalls ht
  have hmeets' := meets_ofCalls (fun c hc => hcalls c (hperm.mem_iff.2 hc)) ht'
  have halike := hmeets.alike hmeets' hperm
  have hbuilt := hmeets.isBuilt
  have hbuilt' := hmeets'.isBuilt
  refine ⟨?_, halike, fun spelling a => ⟨?_, ?_⟩, resolve_eq_of_alike halike hbuilt hbuilt'⟩
  · refine (List.perm_ext_iff_of_nodup hbuilt.nodup hbuilt'.nodup).2 fun a => ?_
    have hiff (t : Tree) : a ∈ t.resources.map (·.address) ↔ (t.get? a).isSome = true := by
      rw [List.mem_map, get?_isSome_iff]
    rw [hiff, hiff, halike.isSome_eq]
  · rintro ⟨r, hr, rfl⟩
    obtain ⟨s, hs, hrs⟩ := halike.exists_foundAt hbuilt hr
    exact ⟨s, hs, hrs.address_eq.symm⟩
  · rintro ⟨s, hs, rfl⟩
    obtain ⟨r, hr, hsr⟩ := halike.symm.exists_foundAt hbuilt' hs
    exact ⟨r, hr, hsr.address_eq.symm⟩

/-- A file below a folder that is only later asked for, and twice a link to that
file, its target spelled with one slash and with two. -/
def folderLast : List Call := [
  .project "P" (.ofString "/ws"),
  .resource "P" ["src", "b.c"] .file .none,
  .resource "P" ["a", "b.c"] .file (.linked (.ofString "/ws/src//b.c")),
  .resource "P" ["src"] .folder .none,
  .resource "P" ["a", "b.c"] .file (.linked (.ofString "/ws/src/b.c"))]

/-- The same calls, that for the folder before that for the file in it. -/
def folderFirst : List Call := [
  .project "P" (.ofString "/ws"),
  .resource "P" ["a", "b.c"] .file (.linked (.ofString "/ws/src/b.c")),
  .resource "P" ["src"] .folder .none,
  .resource "P" ["a", "b.c"] .file (.linked (.ofString "/ws/src//b.c")),
  .resource "P" ["src", "b.c"] .file .none]

/-- The two trees are not equal, and every reference means the same in both. -/
theorem resolve_perm_folders : ∃ t t', ofCalls folderLast = .ok t ∧ ofCalls folderFirst = .ok t' ∧
    t ≠ t' ∧ ∀ (resolver : Resolver) (d : Disk) (site : Site) (ref : Reference),
      resolver.resolve t d site ref = resolver.resolve t' d site ref := by
  have hspelled : ∀ c ∈ folderLast, c.IsSpelled := by decide
  obtain ⟨t, ht⟩ : ∃ t, ofCalls folderLast = .ok t := ⟨_, rfl⟩
  obtain ⟨t', ht'⟩ : ∃ t', ofCalls folderFirst = .ok t' := ⟨_, rfl⟩
  refine ⟨t, t', ht, ht', ?_, (resolve_perm hspelled (by decide) ht ht').2.2.2⟩
  rintro rfl
  have hsame : ofCalls folderLast = ofCalls folderFirst := ht.trans ht'.symm
  revert hsame
  decide

end Resolver

end BuildMarkers
