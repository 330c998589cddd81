import BuildMarkers.Reference.Basic
import Mathlib.Data.List.Basic
import Mathlib.Data.Option.Basic
/-!
# What a Cygwin map recognizes

The points of a map are meant as directories below the root, written with a slash
in front, and keep this slash when those behind are taken away (`isRooted_make`).
Such a map recognizes absolute paths only and leaves every other text alone
(`IsRooted.recognizes_eq_false`).
-/

namespace BuildMarkers

namespace CygwinMap

/-- All that the map recognizes starts with a slash. -/
structure IsRooted (m : CygwinMap) : Prop where
  drives : ∀ point ∈ m.drives, point.head? = some '/'
  mounts : ∀ mount ∈ m.mounts, mount.point.head? = some '/'

theorem head?_trimPoint {point : String} (h : point.toList.head? = some '/') :
    (trimPoint point).head? = some '/' := by
  have hprefix : Text.dropTrailing (· = '/') point.toList <+: point.toList := by
    rw [Text.dropTrailing, ← List.reverse_suffix, List.reverse_reverse]
    exact List.dropWhile_suffix _
  unfold trimPoint
  extract_lets trimmed
  split_ifs with hempty
  · rfl
  · obtain ⟨rest, hrest⟩ := hprefix
    rw [← hrest, List.head?_append_of_ne_nil _ (by simpa using hempty)] at h
    exact h

/-- **A map is rooted if it is made from points that start with a slash.** -/
theorem isRooted_make {drives : Option String} {mounts : List (String × Path)}
    (hdrives : ∀ point ∈ drives, point.toList.head? = some '/')
    (hmounts : ∀ m ∈ mounts, m.1.toList.head? = some '/') : (make drives mounts).IsRooted := by
  constructor
  · intro point hpoint
    obtain ⟨drive, hdrive, rfl⟩ := Option.map_eq_some_iff.1 hpoint
    exact head?_trimPoint (hdrives drive hdrive)
  · intro mount hmount
    rw [make, (List.mergeSort_perm _ _).mem_iff] at hmount
    obtain ⟨m, hm, rfl⟩ := List.mem_map.1 hmount
    exact head?_trimPoint (hmounts m hm)

theorem after?_eq_none {point s : List Char} (hpoint : point.head? = some '/')
    (hs : s.head? ≠ some '/') :
    after? point s = none := by
  refine if_neg fun hprefix => hs ?_
  obtain ⟨rest, rfl⟩ := List.isPrefixOf_iff_prefix.1 hprefix
  rw [List.head?_append, hpoint, Option.some_or]

/-- A rooted map leaves a text alone that does not start with a slash. -/
theorem IsRooted.recognizes_eq_false {m : CygwinMap} (h : m.IsRooted) {text : String}
    (htext : text.toList.head? ≠ some '/') : m.recognizes text = false := by
  have hdrive : m.drive? text.toList = none := by
    cases hpoint : m.drives with
    | none => simp [drive?, hpoint]
    | some point =>
      have hnone : after? (point ++ ['/']) text.toList = none :=
        after?_eq_none (by rw [List.head?_append, h.drives point hpoint, Option.some_or]) htext
      simp [drive?, hpoint, hnone]
  have hmount : m.mount? text.toList = none := by
    refine List.findSome?_eq_none_iff.2 fun mount hmem => ?_
    rw [after?_eq_none (h.mounts mount hmem) htext]
    rfl
  rw [recognizes, hdrive, hmount]
  rfl

end CygwinMap

end BuildMarkers
