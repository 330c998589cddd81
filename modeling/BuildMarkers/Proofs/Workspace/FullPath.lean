import BuildMarkers.Proofs.Workspace.Scanned
import BuildMarkers.Settings.Validation
import Mathlib.Algebra.Order.Ring.Nat
import Mathlib.Data.List.Permutation
/-!
# What full paths identify

No two resources of one project have one full path. Two of different projects can,
since the name of a project may have slashes in it: the folder `b` of a project `a`
and a project `a/b` are both called `/a/b`, and so is all that is below them called
alike. It is always in this way that full paths coincide (`exists_append_of_fullPath`),
so they identify the resources of a scanned tree just if nothing below a project is
called as a project is (`fullPath_identifies`).
-/

namespace BuildMarkers

variable {d : Disk} {t : Tree} {a b : Address} {r q : Resource} {ps : List Settings.Project}

namespace Address

/-- **Where full paths coincide, one address continues the name of a project**, by the
names that the other one has behind its project. -/
theorem exists_append_of_fullPath (ha : ∀ s ∈ a.segments, '/' ∉ s.toList)
    (hb : ∀ s ∈ b.segments, '/' ∉ s.toList) (hlength : b.segments.length ≤ a.segments.length)
    (h : a.fullPath = b.fullPath) :
    ∃ names, a.segments = names ++ b.segments ∧
      (⟨a.project, names⟩ : Address).fullPath = (ofProject b.project).fullPath := by
  induction b using childInduction generalizing a with
  | project name => exact ⟨a.segments, (List.append_nil _).symm, h⟩
  | child b n ih =>
    cases a using childInduction with
    | project name => simp at hlength
    | child a m =>
      rw [fullPath_child, fullPath_child] at h
      simp only [segments_child, forall_mem_concat] at ha hb
      obtain ⟨habove, rfl⟩ := append_slash_inj ha.2 hb.2 h
      obtain ⟨names, hnames, hpath⟩ := ih ha.1 hb.1 (by simpa using hlength) habove
      exact ⟨names, by rw [segments_child, segments_child, hnames, List.append_assoc], hpath⟩

/-- An address that is called as a project without slashes is that project. -/
theorem segments_of_fullPath {name : String} (ha : ∀ s ∈ a.segments, '/' ∉ s.toList)
    (hname : '/' ∉ name.toList) (h : a.fullPath = (ofProject name).fullPath) : a.segments = [] := by
  have hcount := count_slash_fullPath ha
  rw [h, count_slash_fullPath (by simp), project_ofProject, List.count_eq_zero.2 hname,
    segments_ofProject, List.length_nil] at hcount
  exact List.length_eq_zero_iff.1 (by omega)

end Address

namespace Tree

/-- No two resources of the tree have one full path. -/
def FullPathsDiffer (t : Tree) : Prop :=
  ∀ r ∈ t.resources, ∀ q ∈ t.resources, r.address.fullPath = q.address.fullPath → r = q

/-- Nothing below a project is called as the project with the name is. -/
def IsClearOf (t : Tree) (name : String) : Prop :=
  ∀ r ∈ t.resources, r.address.fullPath = (Address.ofProject name).fullPath →
    r.address.segments = []

theorem IsBuilt.slash_notMem (ht : t.IsBuilt) (hr : r ∈ t.resources) :
    ∀ s ∈ r.address.segments, '/' ∉ s.toList :=
  fun s hs => (ht.isSegment hr s hs).slash_notMem

theorem IsBuilt.isClearOf (ht : t.IsBuilt) {name : String} (hname : '/' ∉ name.toList) :
    t.IsClearOf name :=
  fun _ hr => Address.segments_of_fullPath (ht.slash_notMem hr) hname

theorem IsBuilt.eq_of_address (ht : t.IsBuilt) (hr : r ∈ t.resources) (hq : q ∈ t.resources)
    (h : r.address = q.address) : r = q :=
  List.inj_on_of_nodup_map ht.nodup hr hq h

/-- **In a built tree full paths differ** just if nothing below a project is called as
one of the projects is. -/
theorem IsBuilt.fullPathsDiffer_iff (ht : t.IsBuilt) :
    t.FullPathsDiffer ↔ ∀ name, (t.get? (.ofProject name)).isSome → t.IsClearOf name := by
  constructor
  · intro hdiffer name hname r hr hpath
    obtain ⟨root, hroot⟩ := Option.isSome_iff_exists.1 hname
    have haddress := address_of_get? hroot
    rw [hdiffer r hr root (mem_of_get? hroot) (by rw [hpath, haddress]), haddress,
      Address.segments_ofProject]
  · intro hclear r hr q hq h
    wlog hlength : q.address.segments.length ≤ r.address.segments.length generalizing r q
    · exact (this q hq r hr h.symm (Nat.le_of_not_le hlength)).symm
    obtain ⟨names, hnames, hpath⟩ :=
      Address.exists_append_of_fullPath (ht.slash_notMem hr) (ht.slash_notMem hq) hlength h
    -- the names lead to something above the one resource that is called as the project of the other
    have hr' : (t.get? ⟨r.address.project, names ++ q.address.segments⟩).isSome := by
      rw [← hnames, ht.isGrown.unique r hr, Option.isSome_some]
    obtain ⟨s, hs⟩ := Option.isSome_iff_exists.1 (ht.isGrown.isSome_of_append hr')
    have haddress := address_of_get? hs
    have hproject : (t.get? (.ofProject q.address.project)).isSome :=
      ht.isGrown.isSome_root (by rw [ht.isGrown.unique q hq, Option.isSome_some])
    have hnil : names = [] := by
      have := hclear _ hproject s (mem_of_get? hs) (by rw [haddress, hpath])
      rwa [haddress] at this
    rw [hnil, List.nil_append] at hnames
    exact ht.eq_of_address hr hq (Address.eq_of_fullPath (ht.slash_notMem hr) (ht.slash_notMem hq)
      (congrArg List.length hnames) h)

end Tree

namespace Survey

open BuildMarkers.Tree

/-- **Full paths identify the resources of a scanned tree** just if nothing below a
project is called as one of the projects is. Within a project they always do, and in
all of the tree if no name of a project has a slash in it. -/
theorem fullPath_identifies (hd : d.IsSound) (h : (scan d ps).2 = .ok t) :
    (t.FullPathsDiffer ↔ ∀ p ∈ ps, t.IsClearOf p.name) ∧
      (∀ r ∈ t.resources, ∀ q ∈ t.resources, r.address.project = q.address.project →
        r.address.fullPath = q.address.fullPath → r = q) ∧
      ((∀ p ∈ ps, '/' ∉ p.name.toList) → t.FullPathsDiffer) := by
  have ht := isBuilt_of_scan hd h
  have hdiffer : t.FullPathsDiffer ↔ ∀ p ∈ ps, t.IsClearOf p.name := by
    simp only [ht.fullPathsDiffer_iff, isSome_of_scan hd h, forall_exists_index, and_imp,
      forall_apply_eq_imp_iff₂]
  refine ⟨hdiffer, fun r hr q hq hproject hpath => ?_, fun hnames => ?_⟩
  · exact ht.eq_of_address hr hq
      (Address.eq_of_fullPath_of_project (ht.slash_notMem hr) (ht.slash_notMem hq) hproject hpath)
  · exact hdiffer.2 fun p hp => ht.isClearOf (hnames p hp)

end Survey

/-- A disk with a folder in one directory, and a directory beside it. -/
def Disk.nested : Disk where
  entries := [
    ([.ofString "a"], .directory),
    ([.ofString "a", .ofString "b"], .directory),
    ([.ofString "a", .ofString "b", .ofString "x.c"], .file { content := [] }),
    ([.ofString "c"], .directory),
    ([.ofString "c", .ofString "x.c"], .file { content := [] })]
  workingDirectory := []

namespace Survey

/-- A project whose name continues that of another one. -/
def nestedSettings : Settings :=
  { Settings.default with projects := [⟨"a", .ofString "/a", []⟩, ⟨"a/b", .ofString "/c", []⟩] }

/-- The file below the folder `b` of the project `a`. -/
def fileBelowB : Resource :=
  ⟨⟨"a", ["b", "x.c"]⟩, .file, .none,
    some (.ofNames [.ofString "a", .ofString "b", .ofString "x.c"]), []⟩

/-- The file below the project `a/b`. -/
def fileBelowAB : Resource :=
  ⟨⟨"a/b", ["x.c"]⟩, .file, .none, some (.ofNames [.ofString "c", .ofString "x.c"]), []⟩

/-- What is at the directory of the first project. -/
def resourcesOfA : List Resource := [
  .root "a" (.ofNames [.ofString "a"]),
  ⟨⟨"a", ["b"]⟩, .folder, .none, some (.ofNames [.ofString "a", .ofString "b"]), []⟩,
  fileBelowB]

/-- What is at the directory of the second one. -/
def resourcesOfAB : List Resource := [.root "a/b" (.ofNames [.ofString "c"]), fileBelowAB]

/-- The first project alone has no slash in its name. -/
theorem fullPath_identifies_alone :
    Disk.nested.IsSound ∧ (scan .nested [⟨"a", .ofString "/a", []⟩]).2 = .ok ⟨resourcesOfA⟩ ∧
      Tree.FullPathsDiffer ⟨resourcesOfA⟩ := by
  have hd : Disk.nested.IsSound := by decide
  have hscan : (scan .nested [⟨"a", .ofString "/a", []⟩]).2 = .ok ⟨resourcesOfA⟩ := by
    decide +kernel
  exact ⟨hd, hscan, (fullPath_identifies hd hscan).2.2 (by decide)⟩

/-- Both projects together are valid settings, and two files have one full path. -/
theorem fullPath_nested :
    nestedSettings.validate = .ok () ∧ Disk.nested.IsSound ∧
      (scan .nested nestedSettings.projects).2 = .ok ⟨resourcesOfA ++ resourcesOfAB⟩ ∧
      ¬ Tree.FullPathsDiffer ⟨resourcesOfA ++ resourcesOfAB⟩ := by
  refine ⟨by decide, by decide, by decide +kernel, fun hdiffer => ?_⟩
  have heq := hdiffer fileBelowB (by decide) fileBelowAB (by decide) (by decide)
  exact absurd heq (by decide)

end Survey

end BuildMarkers
