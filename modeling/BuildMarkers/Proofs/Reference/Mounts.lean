import BuildMarkers.Proofs.Reference.Cygwin
import BuildMarkers.Proofs.Text.Runs
import Mathlib.Data.Char
import Mathlib.Data.List.Nodup
/-!
# The mount that counts

Several mounts may hold one text: those whose points are the text or directories
above it, one nested in the other. The longest of these points counts, and of equal
points the first (`MountRule`). The map keeps its mounts sorted by length and takes the
first that holds the text, which comes to the same, since the sort is stable
(`of_findSome?_mergeSort`). So the order of the mounts has no say where their points
differ, nor have slashes at the end of a point (`translate?_make`).
-/

namespace BuildMarkers

variable {drives : Option String} {mounts others before after : List (String × Path)}
  {m : String × Path} {point s rest : List Char} {text : String} {outcome other : Option Path}

namespace CygwinMap

/-- The point without the slashes at its end. -/
def bare (point : String) : List Char := Text.dropTrailing (· = '/') point.toList

/-- The text is the point or below it, where `rest` leads. A longer name that only starts
like the point is neither. -/
def Below (point text rest : List Char) : Prop := text = point ++ rest ∧ ∀ c ∈ rest.head?, c = '/'

/-- The text is at or below the point. -/
def Holds (point : String) (text : String) : Prop := ∃ rest, Below (bare point) text.toList rest

/-- The text names a drive: its letter stands alone between slashes behind the point of
the drives. -/
def OnDrive (drives : Option String) (text : String) : Prop :=
  ∃ point ∈ drives, ∃ letter rest, letter.isAlpha = true ∧
    Below (trimPoint point ++ ['/', letter]) text.toList rest

/-- What the mounts make of a text. -/
inductive MountRule (mounts : List (String × Path)) (text : String) : Option Path → Prop
  /-- The longest point that holds the text, the first of equal ones, gives its target, from
  where the names behind the point lead on. -/
  | longest {before after : List (String × Path)} {m : String × Path} {rest : List Char} :
      mounts = before ++ m :: after → Below (bare m.1) text.toList rest →
      (∀ n ∈ before, Holds n.1 text → (bare n.1).length < (bare m.1).length) →
      (∀ n ∈ after, Holds n.1 text → (bare n.1).length ≤ (bare m.1).length) →
      MountRule mounts text
        (some
          (m.2.join (.ofString ("/".intercalate (Text.segments (· = '/') (String.ofList rest))))))
  /-- No point holds the text. -/
  | nowhere : (∀ m ∈ mounts, ¬ Holds m.1 text) → MountRule mounts text none

/-- Nothing but slashes is put behind the text. -/
def AddsSlashes (s t : String) : Prop :=
  ∃ slashes : String, t = s ++ slashes ∧ ∀ c ∈ slashes.toList, c = '/'

/-! ## Points -/

/-- A point with a name in it is not the root, so it is kept as it stands without its
slashes. -/
theorem trimPoint_eq_bare {point : String} (h : ∃ c ∈ point.toList, c ≠ '/') :
    trimPoint point = bare point := by
  obtain ⟨c, hc, hne⟩ := h
  obtain ⟨slashes, hpoint, hslashes⟩ := Text.exists_eq_dropTrailing_append (· = '/') point.toList
  refine if_neg fun hempty => ?_
  rw [List.isEmpty_iff.1 hempty, List.nil_append] at hpoint
  exact hne (by simpa using hslashes c (hpoint ▸ hc))

theorem bare_append {s slashes : String} (h : ∀ c ∈ slashes.toList, c = '/') :
    bare (s ++ slashes) = bare s := by
  obtain ⟨run, hs, hrun⟩ := Text.exists_eq_dropTrailing_append (· = '/') s.toList
  have hslashes : ∀ c ∈ run ++ slashes.toList, decide (c = '/') = true :=
    List.forall_mem_append.2 ⟨hrun, fun c hc => decide_eq_true (h c hc)⟩
  rw [bare, String.toList_append, hs, List.append_assoc]
  exact Text.dropTrailing_append hslashes (Text.getLast?_dropTrailing _ _)

theorem AddsSlashes.trimPoint_eq {s t : String} (h : AddsSlashes s t) :
    trimPoint t = trimPoint s := by
  obtain ⟨slashes, rfl, hslashes⟩ := h
  have hbare := bare_append (s := s) hslashes
  simp only [bare] at hbare
  simp only [trimPoint, hbare]

/-- **Slashes at the end of the points leave the map as it is.** -/
theorem make_eq_of_addsSlashes {drives' : Option String}
    (hdrives : Option.Rel AddsSlashes drives drives')
    (hmounts : List.Forall₂ (fun m n => AddsSlashes m.1 n.1 ∧ n.2 = m.2) mounts others) :
    make drives' others = make drives mounts := by
  have hpoint : drives'.map trimPoint = drives.map trimPoint := by
    cases hdrives with
    | some h => exact congrArg some h.trimPoint_eq
    | none => rfl
  have hpoints : others.map (fun m => (⟨trimPoint m.1, m.2⟩ : Mount)) =
      mounts.map fun m => ⟨trimPoint m.1, m.2⟩ := by
    induction hmounts with
    | nil => rfl
    | cons h _ ih =>
      rw [List.map_cons, List.map_cons, h.1.trimPoint_eq, h.2, ih]
  simp only [make, hpoint, hpoints]

/-- Two points that hold one text lie on one way, so they are equal if they are equally
long. -/
theorem Holds.bare_eq {p q : String} (hp : Holds p text) (hq : Holds q text)
    (h : (bare p).length = (bare q).length) : bare p = bare q := by
  obtain ⟨rest, hrest, -⟩ := hp
  obtain ⟨rest', hrest', -⟩ := hq
  exact (List.append_inj (hrest.symm.trans hrest') h).1

theorem after?_eq_some_iff : after? point s = some rest ↔ s = point ++ rest := by
  rw [after?, Option.ite_none_right_eq_some, Option.some_inj, List.isPrefixOf_iff_prefix]
  constructor
  · rintro ⟨⟨back, rfl⟩, hdrop⟩
    rw [← hdrop, List.drop_left]
  · rintro rfl
    exact ⟨List.prefix_append _ _, List.drop_left⟩

/-! ## Places in a list, and the first of a sorted one -/

section Lists

variable {α β : Type} {l : List α} {key : α → ℕ} {f : α → Option β} {b : β}

/-- Of two places in a list one comes first, unless they are the same. -/
theorem append_cons_cases {before after before' after' : List α} {a b : α}
    (h : before ++ a :: after = before' ++ b :: after') :
    (before = before' ∧ a = b) ∨ (b ∈ after ∧ a ∈ before') ∨ (b ∈ before ∧ a ∈ after') := by
  rcases List.append_eq_append_iff.1 h with ⟨middle, rfl, hmiddle⟩ | ⟨middle, rfl, hmiddle⟩
  all_goals
    rcases List.cons_eq_append_iff.1 hmiddle with ⟨rfl, hcons⟩ | ⟨rest, rfl, rfl⟩
    · simp_all
    · simp

/-- Where a list is split at one element, it still is with another one put in. -/
theorem exists_split_insert {before after before' after' : List α} {b : α}
    (h : before ++ after = before' ++ b :: after') (a : α) :
    ∃ front back, before ++ a :: after = front ++ b :: back ∧ (∀ x ∈ front, x = a ∨ x ∈ before') ∧
      ∀ x ∈ back, x = a ∨ x ∈ after' := by
  rcases List.append_eq_append_iff.1 h with ⟨middle, rfl, rfl⟩ | ⟨middle, rfl, hmiddle⟩
  · exact ⟨before ++ a :: middle, after', by simp, by grind, by grind⟩
  · rcases List.cons_eq_append_iff.1 hmiddle with ⟨rfl, rfl⟩ | ⟨rest, rfl, rfl⟩
    · exact ⟨before' ++ [a], after', by simp, by grind, by grind⟩
    · exact ⟨before', rest ++ a :: after, by simp, by grind, by grind⟩

theorem decide_key_trans (key : α → ℕ) (x y z : α) (hxy : decide (key y ≤ key x) = true)
    (hyz : decide (key z ≤ key y) = true) : decide (key z ≤ key x) = true := by
  rw [decide_eq_true_eq] at *
  exact hyz.trans hxy

theorem decide_key_total (key : α → ℕ) (x y : α) :
    (decide (key y ≤ key x) || decide (key x ≤ key y)) = true := by
  rw [Bool.or_eq_true, decide_eq_true_eq, decide_eq_true_eq]
  exact Nat.le_total _ _

/-- **Sorting keeps the order of equal keys.** -/
theorem filter_mergeSort_key (l : List α) (key : α → ℕ) (k : ℕ) :
    (l.mergeSort fun x y => decide (key y ≤ key x)).filter (key · = k) = l.filter (key · = k) := by
  have hequal : (l.filter (key · = k)).Pairwise fun x y => decide (key y ≤ key x) = true := by
    refine List.pairwise_filter.2 (List.pairwise_of_forall fun x y hx hy => ?_)
    rw [decide_eq_true_eq] at *
    rw [hx, hy]
  have hsub := (List.sublist_mergeSort (decide_key_trans key) (decide_key_total key) hequal
    List.filter_sublist).filter (key · = k)
  rw [List.filter_filter] at hsub
  simp only [Bool.and_self] at hsub
  exact (hsub.eq_of_length ((List.mergeSort_perm l _).filter _).length_eq.symm).symm

/-- **The first that a sorted list offers** has the largest key of all that offer something,
and is the first of those with this key. -/
theorem of_findSome?_mergeSort
    (h : (l.mergeSort fun x y => decide (key y ≤ key x)).findSome? f = some b) :
    ∃ before a after, l = before ++ a :: after ∧ f a = some b ∧
      (∀ x ∈ before, (f x).isSome → key x < key a) ∧ ∀ x ∈ after, (f x).isSome → key x ≤ key a := by
  obtain ⟨front, a, back, hsort, ha, hfront⟩ := List.findSome?_eq_some_iff.1 h
  have hsorted := List.pairwise_mergeSort (decide_key_trans key) (decide_key_total key) l
  rw [hsort, List.pairwise_append, List.pairwise_cons] at hsorted
  have hle {x : α} (hx : x ∈ l) (hsome : (f x).isSome) : key x ≤ key a := by
    rw [← (List.mergeSort_perm l fun x y => decide (key y ≤ key x)).mem_iff, hsort] at hx
    rcases List.mem_append.1 hx with hx | hx
    · simp [hfront x hx] at hsome
    · rcases List.mem_cons.1 hx with rfl | hx
      · exact le_rfl
      · exact of_decide_eq_true (hsorted.2.1.1 x hx)
  -- among those with the key of `a` the sorted list has the order of the list itself
  have hequal := filter_mergeSort_key l key (key a)
  rw [hsort, List.filter_append, List.filter_cons_of_pos (by simp)] at hequal
  obtain ⟨outer, tail, rfl, houter, htail⟩ := List.filter_eq_append_iff.1 hequal.symm
  obtain ⟨inner, after, rfl, hinner, -, -⟩ := List.filter_eq_cons_iff.1 htail
  refine ⟨outer ++ inner, a, after, (List.append_assoc _ _ _).symm, ha, fun x hx hsome => ?_,
    fun x hx => hle (by simp [hx])⟩
  refine lt_of_le_of_ne (hle (by rcases List.mem_append.1 hx with hx | hx <;> simp [hx]) hsome)
    fun hkey => ?_
  rcases List.mem_append.1 hx with hx | hx
  · have hmem : x ∈ front.filter (key · = key a) :=
      houter ▸ List.mem_filter.2 ⟨hx, decide_eq_true hkey⟩
    simp [hfront x (List.mem_filter.1 hmem).1] at hsome
  · exact hinner x hx (decide_eq_true hkey)

end Lists

/-! ## The rule -/

theorem Below.holds (h : Below (bare m.1) text.toList rest) : Holds m.1 text := ⟨rest, h⟩

/-- **The rule leaves no choice.** -/
theorem MountRule.eq (h : MountRule mounts text outcome) (h' : MountRule mounts text other) :
    outcome = other := by
  cases h with
  | longest hsplit hbelow hbefore hafter =>
    cases h' with
    | longest hsplit' hbelow' hbefore' hafter' =>
      rcases append_cons_cases (hsplit.symm.trans hsplit') with
        ⟨-, rfl⟩ | ⟨hmem, hmem'⟩ | ⟨hmem, hmem'⟩
      · rw [List.append_cancel_left (hbelow.1.symm.trans hbelow'.1)]
      · exact absurd (hbefore' _ hmem' hbelow.holds) (hafter _ hmem hbelow'.holds).not_gt
      · exact absurd (hbefore _ hmem hbelow'.holds) (hafter' _ hmem' hbelow.holds).not_gt
    | nowhere hnone => exact absurd hbelow.holds (hnone _ (by simp [hsplit]))
  | nowhere hnone =>
    cases h' with
    | longest hsplit' hbelow' _ _ => exact absurd hbelow'.holds (hnone _ (by simp [hsplit']))
    | nowhere _ => rfl

/-- **The order has no say** among mounts whose points differ. -/
theorem MountRule.perm (h : MountRule mounts text outcome) (hperm : others.Perm mounts)
    (hnodup : (mounts.map fun m => bare m.1).Nodup) : MountRule others text outcome := by
  cases h with
  | @longest before after m rest hsplit hbelow hbefore hafter =>
    have hm : m ∈ mounts := by simp [hsplit]
    have hle {n : String × Path} (hn : n ∈ mounts) (hholds : Holds n.1 text) :
        (bare n.1).length ≤ (bare m.1).length := by
      rw [hsplit] at hn
      rcases List.mem_append.1 hn with hn | hn
      · exact (hbefore n hn hholds).le
      · rcases List.mem_cons.1 hn with rfl | hn
        · exact le_rfl
        · exact hafter n hn hholds
    obtain ⟨front, back, hothers, hfront⟩ := List.eq_append_cons_of_mem (hperm.mem_iff.2 hm)
    have hmem {n : String × Path} (hn : n ∈ front ++ m :: back) : n ∈ mounts :=
      hperm.mem_iff.1 (hothers ▸ hn)
    refine .longest hothers hbelow (fun n hn hholds => ?_)
      fun n hn hholds => hle (hmem (by simp [hn])) hholds
    refine lt_of_le_of_ne (hle (hmem (by simp [hn])) hholds) fun hlength => hfront ?_
    -- equally long points that hold one text are equal, so the other mount would be this one
    rwa [← List.inj_on_of_nodup_map hnodup (hmem (by simp [hn])) hm
      (hholds.bare_eq hbelow.holds hlength)]
  | nowhere hnone => exact .nowhere fun m hm => hnone m (hperm.mem_iff.1 hm)

/-- **A mount that does not hold the text** may as well not be there. -/
theorem MountRule.insert (h : MountRule (before ++ after) text outcome) (hm : ¬ Holds m.1 text) :
    MountRule (before ++ m :: after) text outcome := by
  cases h with
  | longest hsplit hbelow hbefore hafter =>
    obtain ⟨front, back, hinsert, hfront, hback⟩ := exists_split_insert hsplit m
    refine .longest hinsert hbelow (fun n hn hholds => ?_) fun n hn hholds => ?_
    · exact hbefore n ((hfront n hn).resolve_left (by rintro rfl; exact hm hholds)) hholds
    · exact hafter n ((hback n hn).resolve_left (by rintro rfl; exact hm hholds)) hholds
  | nowhere hnone =>
    refine .nowhere fun n hn hholds => ?_
    rcases List.mem_append.1 hn with hn | hn
    · exact hnone n (List.mem_append_left _ hn) hholds
    · rcases List.mem_cons.1 hn with rfl | hn
      · exact hm hholds
      · exact hnone n (List.mem_append_right _ hn) hholds

/-! ## Points counted in bytes -/

theorem byteLength_append (s t : List Char) :
    Text.byteLength (s ++ t) = Text.byteLength s + Text.byteLength t := by
  simp [Text.byteLength]

theorem byteLength_pos (h : s ≠ []) : 0 < Text.byteLength s := by
  obtain ⟨c, rest, rfl⟩ := List.exists_cons_of_ne_nil h
  have hc := c.utf8Size_pos
  rw [Text.byteLength, List.flatMap_cons, List.length_append, String.length_utf8EncodeChar]
  omega

/-- **Of two points that hold one text** the one with more bytes has more characters: the
shorter one is a prefix of the longer one. -/
theorem byteLength_lt_iff {p q : List Char} (hp : p <+: s) (hq : q <+: s) :
    Text.byteLength p < Text.byteLength q ↔ p.length < q.length := by
  rcases List.prefix_or_prefix_of_prefix hp hq with ⟨more, rfl⟩ | ⟨more, rfl⟩
  · rw [byteLength_append, List.length_append, Nat.lt_add_right_iff_pos, Nat.lt_add_right_iff_pos]
    refine ⟨fun h => List.length_pos_of_ne_nil ?_, fun h => byteLength_pos ?_⟩
    · rintro rfl
      exact absurd h (by simp [Text.byteLength])
    · exact List.ne_nil_of_length_pos h
  · rw [byteLength_append, List.length_append]
    omega

/-! ## The map follows the rule -/

/-- A mount offers its target to what lies at or below its point. -/
theorem offer_eq_some_iff (mount : Mount) {target : Path} :
    (do
      let rest ← after? mount.point s
      if rest.isEmpty || rest.head? == some '/' then some (mount.target, rest) else none) =
        some (target, rest) ↔ Below mount.point s rest ∧ target = mount.target := by
  simp only [Option.bind_eq_bind, Option.bind_eq_some_iff, after?_eq_some_iff,
    Option.ite_none_right_eq_some, Option.some_inj, Prod.mk.injEq, Below]
  constructor
  · rintro ⟨rest', hs, hend, rfl, rfl⟩
    refine ⟨⟨hs, fun c hc => ?_⟩, rfl⟩
    rw [Option.mem_def] at hc
    obtain ⟨back, rfl⟩ := List.head?_eq_some_iff.1 hc
    simpa using hend
  · rintro ⟨⟨hs, hend⟩, rfl⟩
    refine ⟨rest, hs, ?_, rfl, rfl⟩
    cases rest with
    | nil => rfl
    | cons c back => simp [hend c rfl]

/-- A drive is read off the texts that name one. -/
theorem drive?_make_isSome_iff :
    ((make drives mounts).drive? text.toList).isSome ↔ OnDrive drives text := by
  cases drives with
  | none => simp [drive?, make, OnDrive]
  | some point =>
    simp only [drive?, make, OnDrive, Below, Option.map_some, Option.bind_eq_bind, Option.bind_some,
      Option.mem_some_iff, exists_eq_left']
    constructor
    · intro h
      cases hrest : after? (trimPoint point ++ ['/']) text.toList with
      | none => simp [hrest] at h
      | some rest =>
        rw [hrest] at h
        rw [after?_eq_some_iff] at hrest
        rcases rest with _ | ⟨letter, _ | ⟨c, rest⟩⟩
        · simp at h
        · exact ⟨letter, [], by simpa using h, by simpa using hrest, by simp⟩
        · have hc : c = '/' := by
            by_contra hne
            simp [hne] at h
          subst hc
          exact ⟨letter, '/' :: rest, by simpa using h, by simpa using hrest, by simp⟩
    · rintro ⟨letter, rest, hletter, htext, hend⟩
      have hafter : after? (trimPoint point ++ ['/']) text.toList = some (letter :: rest) :=
        after?_eq_some_iff.2 (by simpa using htext)
      rw [hafter]
      cases rest with
      | nil => simp [hletter]
      | cons c rest =>
        obtain rfl := hend c rfl
        simp [hletter]

/-- **The mounts of a map follow the rule.** -/
theorem mountRule_translate? (hmounts : ∀ m ∈ mounts, ∃ c ∈ m.1.toList, c ≠ '/')
    (hdrive : ¬ OnDrive drives text) :
    MountRule mounts text ((make drives mounts).translate? text) := by
  have hpoint {m : String × Path} (hm : m ∈ mounts) : trimPoint m.1 = bare m.1 :=
    trimPoint_eq_bare (hmounts m hm)
  have hnodrive : (make drives mounts).drive? text.toList = none := by
    rwa [← Option.not_isSome_iff_eq_none, drive?_make_isSome_iff]
  have hoffer {m : String × Path} {rest : List Char} (hm : m ∈ mounts)
      (h : Below (bare m.1) text.toList rest) :=
    (offer_eq_some_iff ⟨trimPoint m.1, m.2⟩).2 ⟨(hpoint hm).symm ▸ h, rfl⟩
  simp only [translate?, hnodrive]
  cases hmount : (make drives mounts).mount? text.toList with
  | none =>
    refine .nowhere fun m hm ⟨rest, hrest⟩ => ?_
    have hmem : (⟨trimPoint m.1, m.2⟩ : Mount) ∈ (make drives mounts).mounts :=
      (List.mergeSort_perm _ _).mem_iff.2 (List.mem_map_of_mem hm)
    have hnone := List.findSome?_eq_none_iff.1 hmount _ hmem
    exact absurd ((hoffer hm hrest).symm.trans hnone) (by simp)
  | some found =>
    obtain ⟨target, rest⟩ := found
    obtain ⟨front, mount, back, hsplit, hfound, hfront, hback⟩ := of_findSome?_mergeSort hmount
    obtain ⟨before, rear, rfl, rfl, hrear⟩ := List.map_eq_append_iff.1 hsplit
    obtain ⟨m, after, rfl, rfl, rfl⟩ := List.map_eq_cons_iff.1 hrear
    obtain ⟨hbelow, rfl⟩ := (offer_eq_some_iff _).1 hfound
    simp only [Option.map_some]
    rw [hpoint (by simp)] at hbelow
    have hprefix : bare m.1 <+: text.toList := ⟨rest, hbelow.1.symm⟩
    refine .longest rfl hbelow (fun n hn ⟨rest', hrest'⟩ => ?_) fun n hn ⟨rest', hrest'⟩ => ?_
    · have hoffers := Option.isSome_of_eq_some (hoffer (by simp [hn]) hrest')
      have hlt := hfront _ (List.mem_map_of_mem hn) hoffers
      rw [hpoint (by simp [hn]), hpoint (by simp)] at hlt
      exact (byteLength_lt_iff ⟨rest', hrest'.1.symm⟩ hprefix).1 hlt
    · have hoffers := Option.isSome_of_eq_some (hoffer (by simp [hn]) hrest')
      have hle := hback _ (List.mem_map_of_mem hn) hoffers
      rw [hpoint (by simp [hn]), hpoint (by simp), ← not_lt] at hle
      exact not_lt.1 (mt (byteLength_lt_iff hprefix ⟨rest', hrest'.1.symm⟩).2 hle)

/-- A text in which a longer name stands where the point ends is not held by it. -/
theorem not_holds_of_longer {c : Char} (htext : text.toList = bare m.1 ++ c :: rest)
    (hc : c ≠ '/') :
    ¬ Holds m.1 text := by
  rintro ⟨rest', hrest', hend⟩
  have hsame : rest' = c :: rest := List.append_cancel_left (hrest'.symm.trans htext)
  exact hc (hend c (by simp [hsame]))

/-- Whether the map recognizes a text is whether it translates it. -/
theorem recognizes_eq_isSome (map : CygwinMap) (text : String) :
    map.recognizes text = (map.translate? text).isSome := by
  rw [recognizes, translate?]
  cases map.drive? text.toList with
  | some _ => rfl
  | none => simp

/-- The translation does not see a change of the mounts that the rule does not see. -/
theorem translate?_congr (hmounts : ∀ m ∈ mounts, ∃ c ∈ m.1.toList, c ≠ '/')
    (hothers : ∀ m ∈ others, ∃ c ∈ m.1.toList, c ≠ '/')
    (h : ∀ outcome, MountRule others text outcome → MountRule mounts text outcome) :
    (make drives others).translate? text = (make drives mounts).translate? text := by
  by_cases hdrive : OnDrive drives text
  · have hsome : ((make drives mounts).drive? text.toList).isSome := drive?_make_isSome_iff.2 hdrive
    obtain ⟨found, hfound⟩ := Option.isSome_iff_exists.1 hsome
    have hfound' : (make drives others).drive? text.toList = some found := hfound
    simp only [translate?, hfound, hfound']
  · exact (h _ (mountRule_translate? hothers hdrive)).eq (mountRule_translate? hmounts hdrive)

/-- **The longest mount that holds a text translates it.** The map made of the mounts
recognizes the texts that it translates, and follows the rule of the mounts unless the text
names a drive. It does not matter in which order mounts are listed whose points differ, nor
whether slashes are put behind points, and a mount has no say about a text in which its
point goes on as a longer name. -/
theorem translate?_make (drives : Option String) (mounts : List (String × Path))
    (hmounts : ∀ m ∈ mounts, ∃ c ∈ m.1.toList, c ≠ '/') :
    let map := make drives mounts
    (∀ text, map.recognizes text = (map.translate? text).isSome) ∧
    (∀ text, ¬ OnDrive drives text →
      ∀ outcome, map.translate? text = outcome ↔ MountRule mounts text outcome) ∧
    (∀ others, others.Perm mounts → (mounts.map fun m => bare m.1).Nodup →
      ∀ text, (make drives others).translate? text = map.translate? text) ∧
    (∀ drives' others, Option.Rel AddsSlashes drives drives' →
      List.Forall₂ (fun m n => AddsSlashes m.1 n.1 ∧ n.2 = m.2) mounts others →
      ∀ text, (make drives' others).translate? text = map.translate? text) ∧
    ∀ before m after, mounts = before ++ m :: after →
      ∀ text c rest, text.toList = bare m.1 ++ c :: rest → c ≠ '/' →
        (make drives (before ++ after)).translate? text = map.translate? text := by
  intro map
  refine ⟨recognizes_eq_isSome map, fun text hdrive outcome => ?_,
    fun others hperm hnodup text => ?_, fun drives' others hdrives hothers text => ?_, ?_⟩
  · have hrule := mountRule_translate? hmounts hdrive
    exact ⟨fun h => h ▸ hrule, hrule.eq⟩
  · exact translate?_congr hmounts (fun m hm => hmounts m (hperm.mem_iff.1 hm)) fun outcome h =>
      h.perm hperm.symm ((hperm.map _).nodup_iff.2 hnodup)
  · rw [make_eq_of_addsSlashes hdrives hothers]
  · rintro before m after rfl text c rest htext hc
    exact translate?_congr hmounts (fun n hn => hmounts n (by simp at hn ⊢; tauto)) fun outcome h =>
      h.insert (not_holds_of_longer htext hc)

/-- A mount and another one below it. -/
def nestedMounts : List (String × Path) :=
  [("/usr", .ofString "/opt/usr"), ("/usr/include/", .ofString "/opt/include")]

/-- The same mounts in the other order. -/
def swappedMounts : List (String × Path) :=
  [("/usr/include/", .ofString "/opt/include"), ("/usr", .ofString "/opt/usr")]

/-- The same mounts with slashes behind their points. -/
def slashedMounts : List (String × Path) :=
  [("/usr//", .ofString "/opt/usr"), ("/usr/include//", .ofString "/opt/include")]

/-- The inner mount translates what is below it, wherever it is listed, and the outer one
has no say about `/usrlocal`. -/
theorem translate?_make_nested :
    (make none nestedMounts).translate? "/usr/include//sys/stat.h" =
        some (.ofString "/opt/include/sys/stat.h") ∧
      (make none nestedMounts).recognizes "/usr/include//sys/stat.h" = true ∧
      (make none swappedMounts).translate? "/usr/include//sys/stat.h" =
        some (.ofString "/opt/include/sys/stat.h") ∧
      (make none slashedMounts).translate? "/usr/include//sys/stat.h" =
        some (.ofString "/opt/include/sys/stat.h") ∧
      (make none [("/usr/include/", .ofString "/opt/include")]).translate? "/usrlocal/x.h" =
        (make none nestedMounts).translate? "/usrlocal/x.h" := by
  have hmounts : ∀ m ∈ nestedMounts, ∃ c ∈ m.1.toList, c ≠ '/' := by simp [nestedMounts]
  have hbelow : Below (bare "/usr/include/") "/usr/include//sys/stat.h".toList
      "//sys/stat.h".toList :=
    ⟨by cbv, by simp⟩
  have hshorter : (bare "/usr").length < (bare "/usr/include/").length := by cbv
  have htarget : (Path.ofString "/opt/include").join (.ofString ("/".intercalate
      (Text.segments (· = '/') (String.ofList "//sys/stat.h".toList)))) =
        .ofString "/opt/include/sys/stat.h" := by cbv
  have hlongest : MountRule nestedMounts "/usr/include//sys/stat.h"
      (some (.ofString "/opt/include/sys/stat.h")) := by
    have hsplit : nestedMounts =
        [("/usr", .ofString "/opt/usr")] ++ ("/usr/include/", .ofString "/opt/include") :: [] := rfl
    have hrule := MountRule.longest hsplit hbelow (by simp [hshorter]) (by simp)
    rwa [htarget] at hrule
  have hdrive : ¬ OnDrive none "/usr/include//sys/stat.h" := by simp [OnDrive]
  have hnodup : (nestedMounts.map fun m => bare m.1).Nodup := by
    have hpoints : nestedMounts.map (fun m => bare m.1) =
        ["/usr".toList, "/usr/include".toList] := by cbv
    rw [hpoints]
    decide
  have hslashed : List.Forall₂ (fun m n => AddsSlashes m.1 n.1 ∧ n.2 = m.2) nestedMounts
      slashedMounts :=
    .cons ⟨⟨"//", by decide, by simp⟩, rfl⟩ (.cons ⟨⟨"/", by decide, by simp⟩, rfl⟩ .nil)
  obtain ⟨hrecognizes, hrule, hperm, hslashes, hlonger⟩ := translate?_make none nestedMounts hmounts
  have htranslate := (hrule _ hdrive _).2 hlongest
  refine ⟨htranslate, ?_, ?_, ?_, hlonger [] _ _ rfl _ 'l' "ocal/x.h".toList (by cbv) (by decide)⟩
  · rw [hrecognizes, htranslate, Option.isSome_some]
  · rw [hperm swappedMounts (.swap _ _ _) hnodup, htranslate]
  · rw [hslashes none slashedMounts .none hslashed, htranslate]

end CygwinMap

end BuildMarkers
