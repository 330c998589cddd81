import BuildMarkers.Proofs.Disk.Leads
import BuildMarkers.Proofs.Settings.Valid
import BuildMarkers.Proofs.Workspace.Tour
/-!
# Trees that portray the disk

A resource lies at a place if that is its location and every spelling of it
leads there. Children pass this on: what is found in a directory lies where it
leads, whichever of its spellings the directory is seen by (`LiesAt.below`). What
is found in a closed directory is withheld: each of its spellings leads to the
directory and is refused there (`LiesAt.below_of_isClosed`). A tree portrays the
disk if every file in it that has a spelling at all lies at a place that is no
directory, or is withheld. On a disk without a limit on links the steps of a
survey keep a tree portraying, however the links of the disk and the configured
ones are entangled, because they only ever enter what lies at a directory.
-/

namespace BuildMarkers

variable {d : Disk} {t t' : Tree} {r parent : Resource} {p place real : Place} {n : FileName}
  {text project : String} {segments : List String} {walked : List Place} {link : Link} {kind : Kind}

namespace Resource

/-- The resource is located at the place, and all its spellings lead there. -/
structure LiesAt (d : Disk) (r : Resource) (p : Place) : Prop where
  location_eq : r.location = some (.ofNames p)
  leads : ∀ s ∈ r.spellings, d.Leads s p

/-- The resource is located in the closed directory under the name, and all its
spellings lead to the directory and on by that name. -/
structure IsWithheld (d : Disk) (r : Resource) (p : Place) (n : FileName) : Prop where
  directory : d.isDirectory p = true
  closed : d.isClosed p = true
  isEntry : n.IsEntry
  location_eq : r.location = some (.ofNames (p ++ [n]))
  leads : ∀ s ∈ r.spellings, ∃ above, s = above ++ [.name n] ∧ d.Leads above p

/-- **The spellings of what is withheld are refused.** -/
theorem IsWithheld.refused (hd : d.IsSound) (hlimit : d.linkLimit = none)
    (h : r.IsWithheld d p n) {s : Route} (hs : s ∈ r.spellings) :
    d.canonicalize s.toPath = .error .accessDenied := by
  obtain ⟨above, rfl, habove⟩ := h.leads s hs
  exact habove.refused hd hlimit (Disk.isDirectory_iff.1 h.directory) h.closed
    h.isEntry.toIsPlain h.isEntry.nul_notMem

namespace LiesAt

theorem stands (h : r.LiesAt d p) : d.Stands p := by
  refine (h.leads (.ofNames p) ?_).stands
  simp [spellings, h.location_eq]

/-- A spelling of a child is its location, or continues a spelling of the parent. -/
theorem mem_spellings_below {s : Route} (hn : n.IsPlain) (htext : n.text? = some text)
    (h : s ∈ (parent.below text kind link).spellings) :
    (parent.below text kind link).location = some s ∨
      ∃ above ∈ parent.spellings, s = above ++ [.name n] := by
  rcases List.mem_append.1 h with h | h
  · exact .inl (Option.mem_toList.1 h)
  · have hthrough : s ∈ parent.spellingsBelow text := by
      simp only [Resource.below] at h
      unfold aliasesOf Link.aliasesAmong at h
      split at h
      · cases h
      · cases h
      · exact (List.mem_filter.1 h).1
    obtain ⟨above, habove, rfl⟩ := List.mem_map.1 hthrough
    exact .inr ⟨above, habove, by rw [Component.ofSegment_of_text? hn htext]⟩

/-- **A child lies where its entry leads**: what leads to the directory leads on
to the entry. -/
theorem below (hd : d.IsSound) (hlimit : d.linkLimit = none) (h : parent.LiesAt d place)
    (hn : n.IsEntry) (htext : n.text? = some text)
    (hreal : d.canonicalize (Route.ofNames (place ++ [n])).toPath = .ok real)
    (hlocation : parent.locationOf text link = some (.ofNames real)) :
    (parent.below text kind link).LiesAt d real := by
  refine ⟨hlocation, fun s hs => ?_⟩
  rcases mem_spellings_below hn.toIsPlain htext hs with hself | ⟨above, habove, rfl⟩
  · obtain rfl := Option.some.inj (hlocation.symm.trans hself)
    exact .ofNames hd (Disk.stands_of_toPath hreal)
  · exact (h.leads above habove).concat hd hlimit hn hreal

end LiesAt

end Resource

/-- The file has no spelling, or lies where its spellings lead, or is withheld. -/
def Resource.IsPortrayed (d : Disk) (f : Resource) : Prop :=
  f.spellings = [] ∨ (∃ p, d.isDirectory p = false ∧ f.LiesAt d p) ∨ ∃ p n, f.IsWithheld d p n

/-- The tree is grown, and the files in it lie where their spellings lead, or are
withheld. -/
structure Tree.Portrays (d : Disk) (t : Tree) : Prop extends t.IsGrown where
  files : ∀ f ∈ t.resources, f.isFile = true → f.IsPortrayed d

namespace Survey

open BuildMarkers.Tree

/-- The steps below a directory keep a tree portraying in which a resource lies at
the directory. A directory that cannot be reached needs none. -/
def Keeps (d : Disk) (project : String) (below : List String → Place → List Step) : Prop :=
  ∀ (t t' : Tree) (r : Resource) (segments : List String) (p : Place), t.Portrays d →
    t.get? ⟨project, segments⟩ = some r → d.IsOwn p → (d.Stands p → r.LiesAt d p) →
    Builds t (below segments p) t' → t.Grows t' ∧ t'.Portrays d

end Survey

end BuildMarkers
