import BuildMarkers.Proofs.Text.Runs
import Mathlib.Data.String.Basic
/-!
# Segments of a text

A segment is what is left between separators: never empty and without a
separator (`mem_segments`). Segments that are joined by a slash are found again
one by one (`segments_intercalate`), so a path that is spelled by its names has
these names as its segments. Separators at the ends of a text add none
(`segments_stripBoth`).
-/

namespace BuildMarkers

namespace Text

variable {isSeparator : Char → Bool} {s part : String} {names : List String}

/-- What is split by separators is left without them. -/
theorem eq_false_of_mem_splitOnP {α : Type} {isSeparator : α → Bool} {l piece : List α}
    (h : piece ∈ l.splitOnP isSeparator) : ∀ x ∈ piece, isSeparator x = false := by
  induction l generalizing piece with
  | nil => simp_all
  | cons x l ih =>
    obtain ⟨first, rest, hsplit⟩ := List.exists_cons_of_ne_nil (List.splitOnP_ne_nil isSeparator l)
    rw [List.splitOnP_cons_eq_if_modifyHead] at h
    rw [hsplit] at ih h
    split_ifs at h with hx
    · rcases List.mem_cons.1 h with rfl | h
      · simp
      · exact ih h
    · rcases List.mem_cons.1 h with rfl | h
      · exact List.forall_mem_cons.2 ⟨Bool.eq_false_iff.2 hx, ih List.mem_cons_self⟩
      · exact ih (List.mem_cons_of_mem _ h)

/-- **It does not matter by which separators a text is split.** -/
theorem splitOnP_congr {isSeparator : α → Bool} {l l' : List α}
    (h : List.Forall₂ (fun x y => y = x ∨ isSeparator x = true ∧ isSeparator y = true) l l') :
    l.splitOnP isSeparator = l'.splitOnP isSeparator := by
  induction h with
  | nil => rfl
  | cons hxy _ ih =>
    rw [List.splitOnP_cons_eq_if_modifyHead, List.splitOnP_cons_eq_if_modifyHead, ih]
    rcases hxy with rfl | ⟨hx, hy⟩
    · rfl
    · rw [if_pos hx, if_pos hy]

/-- **A segment is not empty and has no separator in it.** -/
theorem mem_segments (h : part ∈ segments isSeparator s) :
    part ≠ "" ∧ ∀ c ∈ part.toList, isSeparator c = false := by
  obtain ⟨piece, hpiece, rfl⟩ := List.mem_map.1 h
  obtain ⟨hpiece, hne⟩ := List.mem_filter.1 hpiece
  constructor
  · simpa [String.ofList_eq] using hne
  · rw [String.toList_ofList]
    exact eq_false_of_mem_splitOnP hpiece

/-- Between separators stands what they were put between. -/
theorem splitOnP_intercalate {separator : Char} (hseparator : isSeparator separator = true)
    {pieces : List (List Char)} (hne : pieces ≠ [])
    (h : ∀ piece ∈ pieces, ∀ c ∈ piece, isSeparator c = false) :
    ([separator].intercalate pieces).splitOnP isSeparator = pieces := by
  induction pieces with
  | nil => exact absurd rfl hne
  | cons piece pieces ih =>
    have hpiece : piece.splitOnP isSeparator = [piece] :=
      List.splitOnP_eq_singleton (h piece List.mem_cons_self)
    cases pieces with
    | nil => simpa using hpiece
    | cons next pieces =>
      have hrest := ih (by simp) fun p hp => h p (List.mem_cons_of_mem _ hp)
      rw [List.intercalate_cons_cons, List.append_assoc, List.singleton_append,
        List.splitOnP_append_cons _ _ hseparator, hpiece, hrest, List.singleton_append]

/-- **Joined segments are found again.** -/
theorem segments_intercalate (hslash : isSeparator '/' = true)
    (h : ∀ name ∈ names, name ≠ "" ∧ ∀ c ∈ name.toList, isSeparator c = false) :
    segments isSeparator ("/".intercalate names) = names := by
  rcases eq_or_ne names [] with rfl | hne
  · simp [segments]
  have hsplit : ("/".intercalate names).toList.splitOnP isSeparator = names.map String.toList := by
    rw [String.toList_intercalate]
    refine splitOnP_intercalate hslash (by simpa using hne) fun piece hpiece => ?_
    obtain ⟨name, hname, rfl⟩ := List.mem_map.1 hpiece
    exact (h name hname).2
  have hfilter : (names.map String.toList).filter (fun part => !part.isEmpty) =
      names.map String.toList := by
    refine List.filter_eq_self.2 fun piece hpiece => ?_
    obtain ⟨name, hname, rfl⟩ := List.mem_map.1 hpiece
    simpa using (h name hname).1
  rw [segments, hsplit, hfilter, List.map_map]
  simp

/-- A separator ends a segment. -/
theorem segments_append_cons {separator : Char} (hseparator : isSeparator separator = true)
    (hne : part ≠ "") (hpart : ∀ c ∈ part.toList, isSeparator c = false) (rest : List Char) :
    segments isSeparator (String.ofList (part.toList ++ separator :: rest)) =
      part :: segments isSeparator (String.ofList rest) := by
  have hsplit : part.toList.splitOnP isSeparator = [part.toList] := List.splitOnP_eq_singleton hpart
  rw [segments, segments, String.toList_ofList, String.toList_ofList,
    List.splitOnP_append_cons _ _ hseparator, hsplit, List.singleton_append,
    List.filter_cons_of_pos (by simpa using hne), List.map_cons, String.ofList_toList]

/-- Separators in front of a text bound no segment. -/
theorem filter_splitOnP_append_left {α : Type} {isSeparator : α → Bool} {run : List α}
    (hrun : ∀ x ∈ run, isSeparator x = true) (l : List α) :
    ((run ++ l).splitOnP isSeparator).filter (fun piece => !piece.isEmpty) =
      (l.splitOnP isSeparator).filter fun piece => !piece.isEmpty := by
  induction run with
  | nil => rfl
  | cons x run ih =>
    obtain ⟨hx, hrun⟩ := List.forall_mem_cons.1 hrun
    rw [List.cons_append, List.splitOnP_cons_eq_if_modifyHead, if_pos hx,
      List.filter_cons_of_neg (by simp)]
    exact ih hrun

/-- Nor do separators behind it. -/
theorem filter_splitOnP_append_right {α : Type} {isSeparator : α → Bool} {run : List α}
    (hrun : ∀ x ∈ run, isSeparator x = true) (l : List α) :
    ((l ++ run).splitOnP isSeparator).filter (fun piece => !piece.isEmpty) =
      (l.splitOnP isSeparator).filter fun piece => !piece.isEmpty := by
  cases run with
  | nil => rw [List.append_nil]
  | cons x run =>
    obtain ⟨hx, hrun⟩ := List.forall_mem_cons.1 hrun
    have hnone := filter_splitOnP_append_left hrun []
    rw [List.append_nil] at hnone
    rw [List.splitOnP_append_cons _ _ hx, List.filter_append, hnone]
    simp

/-- **Without the separators at its ends a text has the same segments.** -/
theorem segments_stripBoth (isSeparator : Char → Bool) (s : String) :
    segments isSeparator (String.ofList (stripBoth isSeparator s.toList)) =
      segments isSeparator s := by
  obtain ⟨front, back, hs, hfront, hback⟩ := exists_eq_stripBoth_append isSeparator s.toList
  rw [segments, segments, String.toList_ofList]
  conv_rhs => rw [hs, filter_splitOnP_append_left hfront, filter_splitOnP_append_right hback]

/-- Joined segments start as the first of them does. -/
theorem head?_intercalate {name : String} (h : name ≠ "") :
    ("/".intercalate (name :: names)).toList.head? = name.toList.head? := by
  have hne : name.toList ≠ [] := by simpa using h
  rw [String.toList_intercalate, List.map_cons]
  cases names with
  | nil => simp
  | cons next names =>
    rw [List.map_cons, List.intercalate_cons_cons, List.append_assoc,
      List.head?_append_of_ne_nil _ hne]

end Text

end BuildMarkers
