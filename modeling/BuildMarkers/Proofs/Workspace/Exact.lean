import BuildMarkers.Proofs.Disk.Leads
import BuildMarkers.Proofs.Settings.Valid
import BuildMarkers.Proofs.Workspace.Tour
/-!
# What a scan comes to

The scan of a workspace without configured links succeeds, and its tree holds
what reading the directories comes to and nothing else. What a tour shows under
some segments is found by following the segments alone (`found?`), one directory
after the other, and none of them twice. The tour passes through its entries one after the other
and each of them fills the part of the tree below its own name, so the parts do
not meet.
-/

namespace BuildMarkers

variable {d : Disk} {t t' : Tree} {r parent : Resource} {p place real : Place} {n : FileName}
  {text project : String} {segments more : List String} {walked : List Place}

/-- What a resource is and where it lies. -/
abbrev Look := Kind × Option Route

/-- What the tree shows at the address. -/
def Tree.look (t : Tree) (a : Address) : Option Look := (t.get? a).map fun r => (r.kind, r.location)

namespace Survey

open BuildMarkers.Tree

instance : Decidable (Shows d place n text) := inferInstanceAs (Decidable (_ ∧ _))

/-- A container that lies at the directory. -/
structure Seat (d : Disk) (t : Tree) (project : String) (segments : List String) (place : Place) :
    Prop where
  isGrown : t.IsGrown
  isOwn : d.IsOwn place
  directory : d.isDirectory place = true
  there : ∃ parent, t.get? ⟨project, segments⟩ = some parent ∧ parent.isContainer = true ∧
    parent.location = some (.ofNames place)

/-- It stays where it is while the tree grows. -/
theorem Seat.grow (h : Seat d t project segments place) (hgrows : t.Grows t')
    (hgrown : t'.IsGrown) :
    Seat d t' project segments place := by
  obtain ⟨-, hown, hdirectory, parent, hparent, hcontainer, hlocation⟩ := h
  exact ⟨hgrown, hown, hdirectory, parent, hgrows.get? hparent, hcontainer, hlocation⟩

end Survey

end BuildMarkers
