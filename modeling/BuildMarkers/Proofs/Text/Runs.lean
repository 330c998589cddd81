import BuildMarkers.Text.Basic
import Mathlib.Data.List.Forall2
import Mathlib.Data.List.TakeWhile
/-!
# Runs of characters

A text is read run by run: a run is what a predicate holds of, up to the first
character that it does not hold of (`takeWhile_run`, `dropWhile_run`). Trimming
takes the runs of white space off both ends, so what is trimmed has none there
(`head?_of_stripBoth_eq`, `getLast?_of_stripBoth_eq`), and a run at the end that
is dropped is no longer than what was put there (`dropTrailing_append`).
-/

namespace BuildMarkers

namespace Text

variable {α : Type} {p : α → Bool} {R : α → α → Prop} {run s t : List α}

/-- A text that the run does not go on in is not cut. -/
theorem dropWhile_stop (hs : ∀ x ∈ s.head?, p x = false) : s.dropWhile p = s := by
  cases s with
  | nil => rfl
  | cons x s => exact List.dropWhile_cons_of_neg (Bool.eq_false_iff.1 (hs x rfl))

/-- **What stands behind a run.** -/
theorem dropWhile_run (hrun : ∀ x ∈ run, p x = true) (hs : ∀ x ∈ s.head?, p x = false) :
    (run ++ s).dropWhile p = s := by
  rw [List.dropWhile_append_of_pos hrun, dropWhile_stop hs]

/-- **The run itself.** -/
theorem takeWhile_run (hrun : ∀ x ∈ run, p x = true) (hs : ∀ x ∈ s.head?, p x = false) :
    (run ++ s).takeWhile p = run := by
  have hstop : s.takeWhile p = [] := by
    cases s with
    | nil => rfl
    | cons x s => exact List.takeWhile_cons_of_neg (Bool.eq_false_iff.1 (hs x rfl))
  rw [List.takeWhile_append_of_pos hrun, hstop, List.append_nil]

/-- A run that ends within a text does not depend on what is put behind it. -/
theorem takeWhile_append_of_exists (h : ∃ x ∈ s, p x = false) :
    (s ++ t).takeWhile p = s.takeWhile p := by
  rw [List.takeWhile_append, if_neg]
  intro hlength
  obtain ⟨x, hx, hpx⟩ := h
  have hall : s.takeWhile p = s := (List.takeWhile_prefix p).eq_of_length hlength
  exact Bool.noConfusion (hpx.symm.trans (List.takeWhile_eq_self_iff.1 hall x hx))

/-- An ASCII blank is white space, so what is no white space is none. -/
theorem isAsciiBlank_eq_false {c : Char} (h : isBlank c = false) : isAsciiBlank c = false := by
  simp only [isBlank, Bool.or_eq_false_iff, Bool.and_eq_false_iff, decide_eq_false_iff_not] at h
  simp only [isAsciiBlank, Bool.or_eq_false_iff, Bool.and_eq_false_iff, decide_eq_false_iff_not]
  omega

/-- Letters and digits are no white space. -/
theorem isBlank_of_isAlphanum {c : Char} (h : c.isAlphanum = true) : isBlank c = false := by
  change ((decide (c.val ≥ 65 ∧ c.val ≤ 90) || (decide (c.val ≥ 97) && decide (c.val ≤ 122))) ||
    (decide (c.val ≥ 48) && decide (c.val ≤ 57))) = true at h
  simp only [Bool.or_eq_true, Bool.and_eq_true, decide_eq_true_eq, ge_iff_le,
    UInt32.le_iff_toNat_le] at h
  have hnumber : (65 ≤ c.toNat ∧ c.toNat ≤ 90 ∨ 97 ≤ c.toNat ∧ c.toNat ≤ 122) ∨
    48 ≤ c.toNat ∧ c.toNat ≤ 57 := h
  simp only [isBlank, Bool.or_eq_false_iff, Bool.and_eq_false_iff, decide_eq_false_iff_not]
  omega

/-! ## Trimming -/

theorem head?_dropWhile (p : α → Bool) (s : List α) : ∀ x ∈ (s.dropWhile p).head?, p x = false := by
  intro x hx
  have hnot := List.head?_dropWhile_not p s
  rw [Option.mem_def.1 hx] at hnot
  exact hnot

theorem getLast?_dropTrailing (p : α → Bool) (s : List α) :
    ∀ x ∈ (dropTrailing p s).getLast?, p x = false := by
  intro x hx
  rw [dropTrailing, List.getLast?_reverse] at hx
  exact head?_dropWhile p s.reverse x hx

/-- **No more is dropped at the end than the run that was put there.** -/
theorem dropTrailing_append (ht : ∀ x ∈ t, p x = true) (hs : ∀ x ∈ s.getLast?, p x = false) :
    dropTrailing p (s ++ t) = s := by
  have htail : ∀ x ∈ t.reverse, p x = true := fun x hx => ht x (List.mem_reverse.1 hx)
  have hstop : ∀ x ∈ s.reverse.head?, p x = false := by
    rwa [List.head?_reverse]
  rw [dropTrailing, List.reverse_append, dropWhile_run htail hstop, List.reverse_reverse]

/-- What is dropped at the end is a run. -/
theorem exists_eq_dropTrailing_append (p : α → Bool) (s : List α) :
    ∃ run, s = dropTrailing p s ++ run ∧ ∀ x ∈ run, p x = true := by
  refine ⟨(s.reverse.takeWhile p).reverse, ?_, fun x hx => ?_⟩
  · rw [dropTrailing, ← List.reverse_append, List.takeWhile_append_dropWhile, List.reverse_reverse]
  · exact List.mem_takeWhile_imp (List.mem_reverse.1 hx)

/-- Nothing is dropped in front of what the run does not go over. -/
theorem dropTrailing_append_of_getLast? (hs : ∀ x ∈ s.getLast?, p x = false) (t : List α) :
    dropTrailing p (s ++ t) = s ++ dropTrailing p t := by
  obtain ⟨run, ht, hrun⟩ := exists_eq_dropTrailing_append p t
  have hlast : ∀ x ∈ (s ++ dropTrailing p t).getLast?, p x = false := by
    intro x hx
    rw [List.getLast?_append] at hx
    rcases Option.or_eq_some_iff.1 hx with hx | ⟨-, hx⟩
    · exact getLast?_dropTrailing p t x hx
    · exact hs x hx
  conv_lhs => rw [ht, ← List.append_assoc]
  exact dropTrailing_append hrun hlast

/-- What is taken off at both ends are runs. -/
theorem exists_eq_stripBoth_append (p : α → Bool) (s : List α) :
    ∃ front back, s = front ++ (stripBoth p s ++ back) ∧ (∀ x ∈ front, p x = true) ∧
      ∀ x ∈ back, p x = true := by
  obtain ⟨back, hback, hrun⟩ := exists_eq_dropTrailing_append p (s.dropWhile p)
  refine ⟨s.takeWhile p, back, ?_, fun x hx => List.mem_takeWhile_imp hx, hrun⟩
  rw [stripBoth, ← hback, List.takeWhile_append_dropWhile]

/-- Nothing is left of a text that is one run. -/
theorem stripBoth_eq_nil_iff : stripBoth p s = [] ↔ ∀ x ∈ s, p x = true := by
  constructor
  · intro h
    obtain ⟨front, back, hs, hfront, hback⟩ := exists_eq_stripBoth_append p s
    rw [h, List.nil_append] at hs
    rw [hs]
    exact List.forall_mem_append.2 ⟨hfront, hback⟩
  · intro h
    rw [stripBoth, List.dropWhile_eq_nil_iff.2 h]
    rfl

theorem length_dropTrailing_le (p : α → Bool) (s : List α) :
    (dropTrailing p s).length ≤ s.length := by
  have hle : (s.reverse.dropWhile p).length ≤ s.reverse.length :=
    (List.dropWhile_suffix p).length_le
  rwa [List.length_reverse, ← List.length_reverse] at hle

/-- What is trimmed already starts with no white space: the length would have
become less. -/
theorem head?_of_stripBoth_eq (h : stripBoth p s = s) : ∀ x ∈ s.head?, p x = false := by
  intro x hx
  obtain ⟨rest, rfl⟩ := List.head?_eq_some_iff.1 hx
  by_contra hp
  have hcut : (x :: rest).dropWhile p = rest.dropWhile p :=
    List.dropWhile_cons_of_pos (by simpa using hp)
  have hlength : (stripBoth p (x :: rest)).length ≤ rest.length := by
    calc (stripBoth p (x :: rest)).length
        ≤ (rest.dropWhile p).length := by
          rw [stripBoth, hcut]
          exact length_dropTrailing_le p _
      _ ≤ rest.length := (List.dropWhile_suffix p).length_le
  rw [h, List.length_cons] at hlength
  omega

/-- What is trimmed already ends with no white space. -/
theorem getLast?_of_stripBoth_eq (h : stripBoth p s = s) : ∀ x ∈ s.getLast?, p x = false := by
  rw [← h]
  exact getLast?_dropTrailing p _

/-- Nothing is taken off where there is no white space at the ends. -/
theorem stripBoth_eq_self (hhead : ∀ x ∈ s.head?, p x = false)
    (hlast : ∀ x ∈ s.getLast?, p x = false) :
    stripBoth p s = s := by
  have hnone : dropTrailing p (s ++ []) = s := dropTrailing_append (by simp) hlast
  rw [List.append_nil] at hnone
  rw [stripBoth, dropWhile_stop hhead, hnone]

/-- Nor does anything in front that is no white space make a difference. -/
theorem stripBoth_append (hrun : ∀ x ∈ run, p x = false) (hs : stripBoth p s = s) :
    stripBoth p (run ++ s) = run ++ s := by
  refine stripBoth_eq_self (fun x hx => ?_) fun x hx => ?_
  · rw [List.head?_append] at hx
    rcases Option.or_eq_some_iff.1 hx with hx | ⟨-, hx⟩
    · exact hrun x (List.mem_of_mem_head? hx)
    · exact head?_of_stripBoth_eq hs x hx
  · rw [List.getLast?_append] at hx
    rcases Option.or_eq_some_iff.1 hx with hx | ⟨-, hx⟩
    · exact getLast?_of_stripBoth_eq hs x hx
    · exact hrun x (List.mem_of_mem_getLast? hx)

/-- A run that is dropped in one text is dropped in the other. -/
theorem forall₂_dropWhile (hp : ∀ x y, R x y → p x = p y) (h : List.Forall₂ R s t) :
    List.Forall₂ R (s.dropWhile p) (t.dropWhile p) := by
  induction h with
  | nil => exact .nil
  | @cons x y s t hxy h ih =>
    rw [List.dropWhile_cons, List.dropWhile_cons, hp x y hxy]
    split_ifs
    · exact ih
    · exact .cons hxy h

/-- **Texts that correspond still do without the runs at their ends.** -/
theorem forall₂_stripBoth (hp : ∀ x y, R x y → p x = p y) (h : List.Forall₂ R s t) :
    List.Forall₂ R (stripBoth p s) (stripBoth p t) := by
  have hfront := forall₂_dropWhile hp h
  have hback := forall₂_dropWhile hp (List.forall₂_reverse_iff.2 hfront)
  exact List.forall₂_reverse_iff.2 hback

/-- A text that is trimmed already, as characters. -/
theorem trimChars_toList {text : String} (h : trim text = text) :
    trimChars text.toList = text.toList := by
  have hchars := congrArg String.toList h
  rwa [trim, String.toList_ofList] at hchars

end Text

end BuildMarkers
