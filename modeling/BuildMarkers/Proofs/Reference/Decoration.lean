import BuildMarkers.Proofs.Text.Segments
import BuildMarkers.Reference.Basic
/-!
# Decoration in front of a reference

A reference may say first where it starts: here, above, or on a drive. No path of a file ends
with that, so a search by name takes the segments behind it. Whatever decoration is put in
front of a reference, with separators of either kind, the search is for the same segments,
which are those of the reference without all decoration in front and without `.`
(`trailingSegments_lead`).
-/

namespace BuildMarkers

namespace Reference

variable {segment : String} {pieces : List (String × Char)}

/-- The segment says where a reference starts. -/
inductive IsDecoration : String → Prop
  | here : IsDecoration "."
  | above : IsDecoration ".."
  | drive {letter : Char} : letter.isAlpha = true → IsDecoration (String.ofList [letter, ':'])

/-- The texts with the separators behind them, one after the other. -/
def lead (pieces : List (String × Char)) : String :=
  String.ofList (pieces.flatMap fun piece => piece.1.toList ++ [piece.2])

theorem isDrive_iff :
    isDrive segment = true ↔ ∃ letter : Char, letter.isAlpha = true ∧
      segment = String.ofList [letter, ':'] := by
  unfold isDrive
  constructor
  · intro h
    split at h
    · next letter hchars =>
      refine ⟨letter, h, ?_⟩
      rw [← hchars, String.ofList_toList]
    · cases h
  · rintro ⟨letter, hletter, rfl⟩
    rw [String.toList_ofList]
    exact hletter

/-- What is taken for decoration is decoration. -/
theorem isDecoration_iff : isDecoration segment = true ↔ IsDecoration segment := by
  rw [isDecoration, Bool.or_eq_true, Bool.or_eq_true, decide_eq_true_eq,
    decide_eq_true_eq, isDrive_iff]
  constructor
  · rintro ((rfl | rfl) | ⟨letter, hletter, rfl⟩)
    · exact .here
    · exact .above
    · exact .drive hletter
  · rintro (- | - | hletter)
    · exact .inl (.inl rfl)
    · exact .inl (.inr rfl)
    · exact .inr ⟨_, hletter, rfl⟩

namespace IsDecoration

theorem ne_empty (h : IsDecoration segment) : segment ≠ "" := by
  cases h with
  | here => decide
  | above => decide
  | drive hletter => simp [← String.toList_inj]

/-- Decoration consists of points, letters and colons. -/
theorem mem_toList (h : IsDecoration segment) {c : Char} (hc : c ∈ segment.toList) :
    c = '.' ∨ c = ':' ∨ c.isAlpha = true := by
  cases h with
  | here => simp_all
  | above => simp_all
  | @drive letter hletter =>
    rw [String.toList_ofList, List.mem_cons, List.mem_singleton] at hc
    rcases hc with rfl | rfl
    · exact .inr (.inr hletter)
    · exact .inr (.inl rfl)

theorem isSeparator_eq_false (h : IsDecoration segment) {c : Char} (hc : c ∈ segment.toList) :
    isSeparator c = false := by
  rcases h.mem_toList hc with rfl | rfl | hletter
  · rfl
  · rfl
  · rw [Bool.eq_false_iff]
    intro hseparator
    simp only [isSeparator, Bool.or_eq_true, decide_eq_true_eq] at hseparator
    rcases hseparator with rfl | rfl <;> revert hletter <;> decide

theorem isBlank_eq_false (h : IsDecoration segment) {c : Char} (hc : c ∈ segment.toList) :
    Text.isBlank c = false := by
  rcases h.mem_toList hc with rfl | rfl | hletter
  · decide
  · decide
  · refine Text.isBlank_of_isAlphanum ?_
    rw [Char.isAlphanum, hletter, Bool.true_or]

end IsDecoration

theorem isBlank_of_isSeparator {c : Char} (h : isSeparator c = true) : Text.isBlank c = false := by
  simp only [isSeparator, Bool.or_eq_true, decide_eq_true_eq] at h
  rcases h with rfl | rfl <;> decide

/-- **Each decoration in front is a segment of its own.** -/
theorem segments_lead
    (hpieces : ∀ piece ∈ pieces, IsDecoration piece.1 ∧ isSeparator piece.2 = true) (s : String) :
    segments ⟨lead pieces ++ s⟩ = pieces.map Prod.fst ++ segments ⟨s⟩ := by
  induction pieces with
  | nil => simp [lead]
  | cons piece pieces ih =>
    obtain ⟨⟨hdecoration, hseparator⟩, hpieces⟩ := List.forall_mem_cons.1 hpieces
    have htext : lead (piece :: pieces) ++ s =
        String.ofList (piece.1.toList ++ piece.2 :: (lead pieces ++ s).toList) := by
      simp [lead, ← String.toList_inj]
    rw [segments, htext, Text.segments_append_cons hseparator hdecoration.ne_empty
      fun c hc => hdecoration.isSeparator_eq_false hc, String.ofList_toList, List.map_cons,
      List.cons_append, ← ih hpieces]
    rfl

/-- No white space comes in with it. -/
theorem trim_lead
    (hpieces : ∀ piece ∈ pieces, IsDecoration piece.1 ∧ isSeparator piece.2 = true) {s : String}
    (htrim : Text.trim s = s) : Text.trim (lead pieces ++ s) = lead pieces ++ s := by
  have hblank : ∀ c ∈ (lead pieces).toList, Text.isBlank c = false := by
    intro c hc
    rw [lead, String.toList_ofList, List.mem_flatMap] at hc
    obtain ⟨piece, hpiece, hc⟩ := hc
    obtain ⟨hdecoration, hseparator⟩ := hpieces piece hpiece
    rcases List.mem_append.1 hc with hc | hc
    · exact hdecoration.isBlank_eq_false hc
    · rw [List.mem_singleton.1 hc]
      exact isBlank_of_isSeparator hseparator
  rw [Text.trim, Text.trimChars, String.toList_append,
    Text.stripBoth_append hblank (Text.trimChars_toList htrim), ← String.toList_append,
      String.ofList_toList]

/-- **The segments that are searched for** are what is left of all behind the decoration, the
`.` taken out. -/
theorem exists_trailingSegments (ref : Reference) :
    ∃ front rest, ref.segments = front ++ rest ∧ (∀ x ∈ front, IsDecoration x) ∧
      (∀ x ∈ rest.head?, ¬ IsDecoration x) ∧ ref.trailingSegments = rest.filter (· ≠ ".") := by
  refine ⟨ref.segments.takeWhile isDecoration, ref.segments.dropWhile isDecoration,
    List.takeWhile_append_dropWhile.symm, fun x hx => ?_, fun x hx => ?_, rfl⟩
  · exact isDecoration_iff.1 (List.mem_takeWhile_imp hx)
  · rw [← isDecoration_iff, Text.head?_dropWhile _ _ x hx]
    simp

/-- **Decoration in front is of no influence on what is searched for.** That is the segments
behind the decoration with which the reference starts, as far as it goes, but for `.`: no
segment is empty or a `.`, the first is no decoration, and each `..` between names is kept. -/
theorem trailingSegments_lead
    (hpieces : ∀ piece ∈ pieces, IsDecoration piece.1 ∧ isSeparator piece.2 = true)
    {s : String} (htrim : Text.trim s = s) :
    let wanted := (ofString s).trailingSegments
    (ofString (lead pieces ++ s)).trailingSegments = wanted ∧
    ∃ front rest, (ofString s).segments = front ++ rest ∧ (∀ x ∈ front, IsDecoration x) ∧
      (∀ x ∈ rest.head?, ¬ IsDecoration x) ∧ wanted = rest.filter (· ≠ ".") ∧
      ("" ∉ wanted ∧ "." ∉ wanted ∧ ∀ x ∈ wanted.head?, ¬ IsDecoration x) ∧
      wanted.count ".." = rest.count ".." := by
  intro wanted
  constructor
  · have hlead : ∀ x ∈ pieces.map Prod.fst, isDecoration x = true := by
      intro x hx
      obtain ⟨piece, hpiece, rfl⟩ := List.mem_map.1 hx
      exact isDecoration_iff.2 (hpieces piece hpiece).1
    simp only [wanted, ofString, trim_lead hpieces htrim, htrim]
    rw [trailingSegments, segments_lead hpieces, List.dropWhile_append_of_pos hlead,
      trailingSegments]
  · obtain ⟨front, rest, hsegments, hfront, hrest, (hwanted : wanted = _)⟩ :=
      exists_trailingSegments (ofString s)
    refine ⟨front, rest, hsegments, hfront, hrest, hwanted, ⟨?_, ?_, ?_⟩, ?_⟩
    · intro hempty
      rw [hwanted] at hempty
      have hmem : "" ∈ (ofString s).segments := by
        rw [hsegments]
        exact List.mem_append_right _ (List.mem_of_mem_filter hempty)
      exact (Text.mem_segments hmem).1 rfl
    · simp [hwanted]
    · -- the first segment behind the decoration is no `.`, so it is kept as the first
      rw [hwanted]
      cases rest with
      | nil => simp
      | cons x rest =>
        have hx : ¬ IsDecoration x := hrest x rfl
        have hdot : x ≠ "." := fun h => hx (h ▸ .here)
        rw [List.filter_cons_of_pos (by simpa using hdot)]
        exact hrest
    · rw [hwanted]
      exact List.count_filter (by simp)

/-- Three directories up, on a drive, and here, with separators of both kinds. -/
def wayThere : List (String × Char) :=
  [("..", '/'), ("..", '\\'), ("C:", '\\'), (".", '/'), ("..", '/')]

/-- Behind all the decoration, also its own, the reference is looked for by the same segments. -/
theorem trailingSegments_lead_wayThere :
    (ofString (lead wayThere ++ "./src\\.//../lib/x.c")).text =
      "../..\\C:\\./.././src\\.//../lib/x.c" ∧
      (ofString (lead wayThere ++ "./src\\.//../lib/x.c")).trailingSegments =
        ["src", "..", "lib", "x.c"] := by
  have hpieces : ∀ piece ∈ wayThere, IsDecoration piece.1 ∧ isSeparator piece.2 = true := by
    simp only [← isDecoration_iff]
    decide
  have htrim : Text.trim "./src\\.//../lib/x.c" = "./src\\.//../lib/x.c" := by decide
  obtain ⟨hsame, -⟩ := trailingSegments_lead hpieces htrim
  refine ⟨by decide, ?_⟩
  rw [hsame]
  decide

end Reference

end BuildMarkers
