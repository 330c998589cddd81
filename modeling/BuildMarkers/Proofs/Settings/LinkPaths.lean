import BuildMarkers.Proofs.Settings.Valid
import BuildMarkers.Proofs.Workspace.Built
/-!
# The paths of links

The settings tell links apart by their keys, the paths without the slashes at their
ends. A tree knows them by the segments of the paths, and for these the empty pieces
and the `.` between slashes do not count either. So the keys of valid settings lead to
different places where they have no such pieces (`segmentsOf_ne_of_validate`), and may not
where they do.
-/

namespace BuildMarkers

namespace Settings

variable {s : Settings} {p : Project} {l m : LinkedResource}

/-- Between the slashes of its path, but for those at the ends, the link has no empty piece
and no `.`. -/
def LinkedResource.IsTidy (l : LinkedResource) : Prop :=
  ∀ piece ∈ (linkKey l).splitOn '/', piece ≠ [] ∧ piece ≠ ['.']

instance (l : LinkedResource) : Decidable l.IsTidy := by
  unfold LinkedResource.IsTidy
  infer_instance

/-- The segments of the path are what is between the slashes of the key, but for empty pieces
and `.`. -/
theorem segmentsOf_eq_key (l : LinkedResource) : Tree.segmentsOf l.path =
    (((linkKey l).splitOn '/').map String.ofList).filter fun s => s ≠ "" ∧ s ≠ "." := by
  have hkey : Tree.segmentsOf (String.ofList (linkKey l)) = Tree.segmentsOf l.path :=
    congrArg (List.filter _) (Text.segments_stripBoth (· = '/') l.path)
  rw [← hkey, Tree.segmentsOf_eq, String.toList_ofList]

namespace LinkedResource

/-- All pieces of a tidy link are segments of its path. -/
theorem IsTidy.segmentsOf_eq (h : l.IsTidy) :
    Tree.segmentsOf l.path = ((linkKey l).splitOn '/').map String.ofList := by
  rw [segmentsOf_eq_key, List.filter_eq_self]
  intro s hs
  obtain ⟨piece, hpiece, rfl⟩ := List.mem_map.1 hs
  obtain ⟨hempty, hdot⟩ := h piece hpiece
  rw [decide_eq_true_iff]
  exact ⟨fun heq => hempty (String.ofList_inj.1 heq), fun heq => hdot (String.ofList_inj.1 heq)⟩

/-- So a tidy link leads below its project. -/
theorem IsTidy.segmentsOf_ne_nil (h : l.IsTidy) : Tree.segmentsOf l.path ≠ [] := by
  rw [h.segmentsOf_eq, ne_eq, List.map_eq_nil_iff]
  exact List.splitOn_ne_nil '/' (linkKey l)

/-- Tidy links to one place have one key. -/
theorem IsTidy.linkKey_eq (hl : l.IsTidy) (hm : m.IsTidy)
    (h : Tree.segmentsOf l.path = Tree.segmentsOf m.path) : linkKey l = linkKey m := by
  rw [hl.segmentsOf_eq, hm.segmentsOf_eq] at h
  have hpieces : (linkKey l).splitOn '/' = (linkKey m).splitOn '/' :=
    List.map_injective_iff.2 (fun _ _ => String.ofList_inj.1) h
  calc linkKey l
    _ = ['/'].intercalate ((linkKey l).splitOn '/') := (List.intercalate_splitOn '/').symm
    _ = ['/'].intercalate ((linkKey m).splitOn '/') := by rw [hpieces]
    _ = linkKey m := List.intercalate_splitOn '/'

end LinkedResource

/-- **In valid settings the tidy links of a project lead to different places**, and below the
project. -/
theorem segmentsOf_ne_of_validate (h : s.validate = .ok ()) (hp : p ∈ s.projects) :
    (∀ l ∈ p.links, l.IsTidy → Tree.segmentsOf l.path ≠ []) ∧
      p.links.Pairwise fun l m => l.IsTidy → m.IsTidy →
        Tree.segmentsOf l.path ≠ Tree.segmentsOf m.path := by
  refine ⟨fun l _ hl => hl.segmentsOf_ne_nil, ?_⟩
  refine (List.pairwise_map.1 (linkKeys_of_validate h hp).2).imp ?_
  exact fun hkey hl hm heq => hkey (hl.linkKey_eq hm heq)

end Settings

end BuildMarkers
