import BuildMarkers.Proofs.Text.Segments
import BuildMarkers.Proofs.Workspace.Growth
/-!
# Addresses

Every address is that of a project or a child of another one, so what passes
from an address to its children holds of all of them (`childInduction`). The
segments of a path have no slash in them, and so a full path tells the segments
apart as soon as their number is known: together they identify an address, even
where the name of a project has slashes of its own (`eq_of_fullPath`). In one
project the number is that of the slashes (`eq_of_fullPath_of_project`).
-/

namespace BuildMarkers

namespace Address

variable {a b : Address} {m n : String}

@[simp] theorem segments_ofProject (name : String) : (ofProject name).segments = [] := rfl

@[simp] theorem segments_child (a : Address) (n : String) :
    (a.child n).segments = a.segments ++ [n] := rfl

@[simp] theorem project_ofProject (name : String) : (ofProject name).project = name := rfl

@[simp] theorem project_child (a : Address) (n : String) : (a.child n).project = a.project := rfl

@[simp] theorem parent?_ofProject (name : String) : (ofProject name).parent? = none := rfl

@[simp] theorem parent?_child (a : Address) (n : String) : (a.child n).parent? = some a := by
  simp [parent?]

@[simp] theorem name_child (a : Address) (n : String) : (a.child n).name = n := by
  simp [name]

theorem ne_child (a : Address) (n : String) : a ≠ a.child n := fun h => by
  simpa using congrArg (·.segments.length) h

theorem eq_ofProject_of_segments (h : a.segments = []) : a = ofProject a.project := by
  cases a
  simp_all [ofProject]

/-- **What passes from an address to its children holds of all addresses** if it
holds of the projects. -/
@[elab_as_elim]
theorem childInduction {motive : Address → Prop} (project : ∀ name, motive (ofProject name))
    (child : ∀ a n, motive a → motive (a.child n)) (a : Address) : motive a := by
  obtain ⟨owner, segments⟩ := a
  induction segments using List.reverseRecOn with
  | nil => exact project owner
  | append_singleton segments n ih => exact child ⟨owner, segments⟩ n ih

/-- What is above an address is that of which it is a child. -/
theorem parent?_eq_some_iff : a.parent? = some b ↔ a = b.child a.name := by
  cases a using childInduction with
  | project name =>
    rw [parent?_ofProject]
    refine ⟨nofun, fun h => ?_⟩
    exact absurd (congrArg segments h).symm segments_child_ne_nil
  | child a n =>
    rw [parent?_child, name_child, Option.some.injEq]
    refine ⟨fun h => by rw [h], fun h => (child_injective h).1⟩

/-- The name of what is below a project is one of the segments. -/
theorem name_mem (h : a.segments ≠ []) : a.name ∈ a.segments := by
  cases a using childInduction with
  | project name => exact absurd rfl h
  | child a n => simp

theorem parent?_eq_none_iff : a.parent? = none ↔ a.segments = [] := by
  simp [parent?]

/-! ## Full paths -/

theorem fullPath_child (a : Address) (n : String) :
    (a.child n).fullPath = a.fullPath ++ "/" ++ n := by
  simp [fullPath]

/-- A text that is cut at its last slash. -/
theorem append_slash_inj {s t : String} (hm : '/' ∉ m.toList) (hn : '/' ∉ n.toList)
    (h : s ++ "/" ++ m = t ++ "/" ++ n) : s = t ∧ m = n := by
  have hchars : m.toList.reverse ++ '/' :: s.toList.reverse =
      n.toList.reverse ++ '/' :: t.toList.reverse := by
    simpa using congrArg (fun text => text.toList.reverse) h
  have hpieces := congrArg (List.splitOn '/') hchars
  rw [List.splitOn_append_cons_self_of_not_mem (by simpa using hm),
    List.splitOn_append_cons_self_of_not_mem (by simpa using hn)] at hpieces
  have hname : m = n := String.toList_inj.1 (List.reverse_injective (List.cons.inj hpieces).1)
  subst hname
  rw [List.append_cancel_left_eq, List.cons.injEq] at hchars
  exact ⟨String.toList_inj.1 (List.reverse_injective hchars.2), rfl⟩

/-- **The full path and the number of segments identify an address.** -/
theorem eq_of_fullPath (ha : ∀ s ∈ a.segments, '/' ∉ s.toList)
    (hb : ∀ s ∈ b.segments, '/' ∉ s.toList)
    (hlength : a.segments.length = b.segments.length) (h : a.fullPath = b.fullPath) : a = b := by
  induction a using childInduction generalizing b with
  | project name =>
    have hroot : b = ofProject b.project :=
      eq_ofProject_of_segments (List.length_eq_zero_iff.1 hlength.symm)
    rw [hroot] at h ⊢
    exact congrArg ofProject (by simpa [fullPath, ofProject] using h)
  | child a n ih =>
    cases b using childInduction with
    | project name => simp at hlength
    | child b m =>
      rw [fullPath_child, fullPath_child] at h
      simp only [segments_child, forall_mem_concat] at ha hb
      obtain ⟨habove, hname⟩ := append_slash_inj ha.2 hb.2 h
      rw [ih ha.1 hb.1 (by simpa using hlength) habove, hname]

/-- Each segment has one slash in front of it, and so has the project. -/
theorem count_slash_fullPath (ha : ∀ s ∈ a.segments, '/' ∉ s.toList) :
    a.fullPath.toList.count '/' = a.project.toList.count '/' + a.segments.length + 1 := by
  induction a using childInduction with
  | project name => simp [fullPath]
  | child a n ih =>
    rw [segments_child, forall_mem_concat] at ha
    rw [fullPath_child, String.toList_append, String.toList_append, List.count_append,
      List.count_append,
      ih ha.1, List.count_eq_zero.2 ha.2, project_child, segments_child, List.length_append]
    rfl

/-- **In one project the full path identifies an address.** -/
theorem eq_of_fullPath_of_project (ha : ∀ s ∈ a.segments, '/' ∉ s.toList)
    (hb : ∀ s ∈ b.segments, '/' ∉ s.toList) (hproject : a.project = b.project)
    (h : a.fullPath = b.fullPath) : a = b := by
  refine eq_of_fullPath ha hb ?_ h
  have hcount := count_slash_fullPath ha
  rw [h, count_slash_fullPath hb, hproject] at hcount
  omega

end Address

end BuildMarkers
