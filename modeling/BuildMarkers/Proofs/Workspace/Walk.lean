import BuildMarkers.Proofs.Text.Order
import BuildMarkers.Proofs.Workspace.Listing
import Mathlib.Algebra.Order.Ring.Nat
import Mathlib.Data.List.Permutation
import Mathlib.Data.List.Sort
/-!
# Files in the order of a walk

The files of a project are defined by sorting. They are also what a walk finds that keeps on
a stack what it still has to visit and puts the children of each resource in front
(`Walk.step`). In the order of segments, what is below a resource comes in one piece behind
it, child by child (`IsBuilt.below_eq`); so the walk goes through what is at and below the
addresses on its stack, one after the other, and ends (`IsBuilt.iterate_step`).

The order of full paths is another one, since there a slash is compared with the characters
of names: `fullPath_lt_fullPath_iff` says for which addresses the two orders differ.
-/

namespace BuildMarkers

/-! ## The order of full paths -/

namespace Address

/-- Behind a common beginning, the first list goes on below a name that the second
one continues by a character before the slash. -/
inductive ContinuesName : List String → List String → Prop
  | here {n m : String} {c : Char} {more more' : List String} : more ≠ [] →
      n.toList ++ [c] <+: m.toList → c < '/' → ContinuesName (n :: more) (m :: more')
  | cons {n : String} {names names' : List String} : ContinuesName names names' →
      ContinuesName (n :: names) (n :: names')

/-- The names with a slash in front of each. -/
def slashed (names : List String) : List Char := names.flatMap fun n => '/' :: n.toList

@[simp] theorem slashed_cons (n : String) (names : List String) :
    slashed (n :: names) = '/' :: (n.toList ++ slashed names) := by
  simp [slashed]

theorem append_lt_append_left_iff {cs ds es : List Char} : cs ++ ds < cs ++ es ↔ ds < es := by
  induction cs with
  | nil => rfl
  | cons c cs ih => simp [ih]

theorem toList_fullPath (a : Address) : a.fullPath.toList = slashed (a.project :: a.segments) := by
  induction a using childInduction with
  | project name => simp [fullPath, slashed, ofProject]
  | child a n ih => simp [fullPath_child, ih, slashed]

/-- With something behind each of them, the later of two names comes first only where it
continues the other one: there it is compared with a slash. -/
theorem append_slashed_lt_iff {cs ds : List Char} (h : cs < ds) (hds : '/' ∉ ds)
    (names names' : List String) : ds ++ slashed names' < cs ++ slashed names ↔
      names ≠ [] ∧ ∃ c, cs ++ [c] <+: ds ∧ c < '/' := by
  induction h with
  | @nil d ds =>
    cases names with
    | nil => simp [slashed]
    | cons n names =>
      -- the slash behind the shorter name meets the character by which the other continues
      have hd : d ≠ '/' := fun heq => hds (heq ▸ List.mem_cons_self)
      simp [slashed, List.cons_lt_cons_iff, hd]
  | @rel c cs d ds hlt =>
    simp [List.cons_lt_cons_iff, hlt.ne, hlt.ne', lt_asymm hlt]
  | @cons c cs ds _ ih =>
    simp [ih (fun hmem => hds (List.mem_cons_of_mem _ hmem))]

theorem continuesName_cons_iff {n : String} {names names' : List String} :
    ContinuesName (n :: names) (n :: names') ↔ ContinuesName names names' := by
  refine ⟨fun h => ?_, .cons⟩
  cases h with
  | here _ hprefix _ => simpa using hprefix.length_le
  | cons h => exact h

theorem continuesName_cons_iff_of_ne {n m : String} {names names' : List String} (hne : n ≠ m) :
    ContinuesName (n :: names) (m :: names') ↔
      names ≠ [] ∧ ∃ c, n.toList ++ [c] <+: m.toList ∧ c < '/' := by
  constructor
  · rintro (⟨hnames, hprefix, hc⟩ | _)
    · exact ⟨hnames, _, hprefix, hc⟩
    · exact absurd rfl hne
  · rintro ⟨hnames, c, hprefix, hc⟩
    exact .here hnames hprefix hc

/-- With slashes in front of the names, the later of two lists comes first exactly if it
continues a name of the other. -/
theorem slashed_lt_slashed_iff {names names' : List String} (h : names < names')
    (hslash : ∀ n ∈ names', '/' ∉ n.toList) :
    slashed names' < slashed names ↔ ContinuesName names names' := by
  induction h with
  | nil => exact iff_of_false (List.not_lt_nil _) fun h => by cases h
  | @rel n names m names' hlt =>
    rw [continuesName_cons_iff_of_ne hlt.ne, slashed_cons, slashed_cons, List.cons_lt_cons_self,
      append_slashed_lt_iff (String.lt_iff_toList_lt.1 hlt) (hslash m List.mem_cons_self)]
  | @cons n names names' _ ih =>
    rw [continuesName_cons_iff, slashed_cons, slashed_cons, List.cons_lt_cons_self,
      append_lt_append_left_iff, ih fun m hm => hslash m (List.mem_cons_of_mem _ hm)]

/-- **The later of two addresses of a project has the earlier full path exactly if it
continues a name of the other.** -/
theorem fullPath_lt_fullPath_iff {a b : Address} (hproject : a.project = b.project)
    (h : a.segments < b.segments) (hslash : ∀ n ∈ b.segments, '/' ∉ n.toList) :
    Text.encode b.fullPath < Text.encode a.fullPath ↔ ContinuesName a.segments b.segments := by
  rw [Text.encode_lt_encode_iff, String.lt_iff_toList_lt, toList_fullPath,
    toList_fullPath, hproject,
    slashed_cons, slashed_cons, List.cons_lt_cons_self, append_lt_append_left_iff,
    slashed_lt_slashed_iff h hslash]

end Address

namespace Tree

variable {t : Tree} {a b : Address} {n project : String}

/-! ## What is below an address -/

/-- The addresses of the resources at and below an address, in the order of a walk. -/
def below (t : Tree) (a : Address) : List Address :=
  ((t.resources.map (·.address)).filter fun b =>
      b.project = a.project ∧ a.segments <+: b.segments).mergeSort
    fun b c => walkLE b.segments c.segments

theorem mem_below : b ∈ t.below a ↔
    (t.get? b).isSome = true ∧ ∃ names, b = ⟨a.project, a.segments ++ names⟩ := by
  rw [Tree.below, List.mem_mergeSort, List.mem_filter, List.mem_map, get?_isSome_iff,
    decide_eq_true_iff]
  refine and_congr_right fun _ => ⟨?_, ?_⟩
  · rintro ⟨hproject, names, hnames⟩
    exact ⟨names, by rw [← hproject, hnames]⟩
  · rintro ⟨names, rfl⟩
    exact ⟨rfl, names, rfl⟩

/-- What is below an address is listed in the order of the segments. -/
theorem IsBuilt.pairwise_below (h : t.IsBuilt) (a : Address) :
    (t.below a).Pairwise fun b c => b.segments < c.segments := by
  simp only [Tree.below, walkLE_eq]
  refine pairwise_lt_mergeSort Address.segments
    (List.pairwise_map.2 (List.pairwise_filter.2 (h.nodup.imp ?_)))
  intro b c hne hb hc heq
  rw [decide_eq_true_iff] at hb hc
  exact hne (by rw [Address.mk.injEq]; exact ⟨hb.1.trans hc.1.symm, heq⟩)

/-- What is below a child comes behind the resource. -/
theorem segments_lt_of_mem_below (hb : b ∈ t.below (a.child n)) : a.segments < b.segments := by
  obtain ⟨-, names, rfl⟩ := mem_below.1 hb
  have hlt : a.segments ++ [] < a.segments ++ n :: names :=
    List.append_left_lt (List.nil_lt_cons n names)
  simpa using hlt

/-- Below two children, the first name in which these differ decides. -/
theorem segments_lt_of_lt {m : String} {c : Address} (hlt : m < n) (hb : b ∈ t.below (a.child m))
    (hc : c ∈ t.below (a.child n)) : b.segments < c.segments := by
  obtain ⟨-, names, rfl⟩ := mem_below.1 hb
  obtain ⟨-, names', rfl⟩ := mem_below.1 hc
  rw [Address.segments_child, Address.segments_child, List.append_assoc, List.append_assoc]
  exact List.append_left_lt (List.cons_lt_cons_iff.2 (.inl hlt))

/-- What is at or below a resource is that resource or at or below one of its
children: the first name on the way down is that of a child. -/
theorem IsBuilt.mem_below_iff (h : t.IsBuilt) (ha : (t.get? a).isSome = true) :
    b ∈ t.below a ↔ b = a ∨ ∃ n ∈ t.children a, b ∈ t.below (a.child n) := by
  simp only [mem_below, mem_children]
  constructor
  · rintro ⟨hget, names, rfl⟩
    cases names with
    | nil => exact .inl (by rw [List.append_nil])
    | cons n names =>
      have hsplit : a.segments ++ n :: names = (a.child n).segments ++ names := by simp
      refine .inr ⟨n, ?_, hget, names, by rw [hsplit, Address.project_child]⟩
      rw [hsplit] at hget
      exact h.isGrown.isSome_of_append hget
  · rintro (rfl | ⟨n, -, hget, names, rfl⟩)
    · exact ⟨ha, [], by rw [List.append_nil]⟩
    · exact ⟨hget, n :: names, by simp⟩

/-- **What is at and below a resource is the resource itself and, child by child,
what is at and below its children.** -/
theorem IsBuilt.below_eq (h : t.IsBuilt) (ha : (t.get? a).isSome = true) :
    t.below a = a :: (t.children a).flatMap fun n => t.below (a.child n) := by
  refine List.Pairwise.eq_of_mem_iff (h.pairwise_below a)
    (List.pairwise_cons.2 ⟨fun b hb => ?_, ?_⟩) fun b => ?_
  · obtain ⟨n, -, hb⟩ := List.mem_flatMap.1 hb
    exact segments_lt_of_mem_below hb
  · exact List.pairwise_flatMap.2 ⟨fun n _ => h.pairwise_below _,
      (h.pairwise_children a).imp fun hlt b hb c hc => segments_lt_of_lt hlt hb hc⟩
  · rw [h.mem_below_iff ha, List.mem_cons, List.mem_flatMap]

/-- The files of a project are those below it. -/
theorem IsBuilt.files_eq (h : t.IsBuilt) (project : String) :
    t.files project = (t.below (.ofProject project)).filter t.isFile := by
  refine List.Pairwise.eq_of_mem_iff (h.pairwise_files project)
    ((h.pairwise_below _).filter _) fun a => ?_
  rw [h.mem_files, List.mem_filter, mem_below, and_congr_left_iff]
  intro hfile
  obtain ⟨r, hr, -⟩ := isFile_iff.1 hfile
  refine ⟨?_, ?_⟩
  · rintro rfl
    exact ⟨Option.isSome_of_eq_some hr, a.segments, rfl⟩
  · rintro ⟨-, names, rfl⟩
    rfl

/-- As many addresses are at and below a project as it has resources. -/
theorem length_below_ofProject (t : Tree) (project : String) :
    (t.below (.ofProject project)).length = t.resources.countP (·.address.project = project) := by
  simp [Tree.below, List.countP_eq_length_filter, List.filter_map, Function.comp_def]

/-! ## The walk -/

/-- A visit takes the visited address away from what is at and below the stack. -/
theorem IsBuilt.flatMap_below_cons (h : t.IsBuilt) {stack : List Address}
    (ha : (t.get? a).isSome = true) :
    (a :: stack).flatMap t.below = a :: ((t.children a).map a.child ++ stack).flatMap t.below := by
  rw [List.flatMap_cons, h.below_eq ha, List.cons_append, List.flatMap_append, List.flatMap_map]

/-- A visit puts nothing on the stack but what is in the tree. -/
theorem isSome_of_mem_step {w : Walk} (h : ∀ a ∈ w.stack, (t.get? a).isSome = true) :
    ∀ a ∈ (Walk.step t w).stack, (t.get? a).isSome = true := by
  obtain ⟨_ | ⟨a, rest⟩, found⟩ := w
  · exact h
  · intro b hb
    rcases List.mem_append.1 hb with hb | hb
    · obtain ⟨n, hchild, rfl⟩ := List.mem_map.1 hb
      exact mem_children.1 hchild
    · exact h b (List.mem_cons_of_mem _ hb)

/-- **A walk visits what is at and below the addresses of its stack**, in this
order, and comes to an end. -/
theorem IsBuilt.iterate_step (h : t.IsBuilt) {stack : List Address} (found : List Address)
    (hstack : ∀ a ∈ stack, (t.get? a).isSome = true) :
    (Walk.step t)^[(stack.flatMap t.below).length] ⟨stack, found⟩ =
      ⟨[], found ++ (stack.flatMap t.below).filter t.isFile⟩ := by
  -- the induction is on how much is at and below the stack
  generalize hn : (stack.flatMap t.below).length = n
  induction n generalizing stack found with
  | zero =>
    cases stack with
    | nil => simp
    | cons a rest =>
      rw [h.flatMap_below_cons (hstack a List.mem_cons_self)] at hn
      cases hn
  | succ n ih =>
    cases stack with
    | nil => cases hn
    | cons a rest =>
      have ha := hstack a List.mem_cons_self
      rw [h.flatMap_below_cons ha, List.length_cons, Nat.succ_inj] at hn
      have hnext : ∀ b ∈ (t.children a).map a.child ++ rest, (t.get? b).isSome = true :=
        isSome_of_mem_step (w := ⟨a :: rest, found⟩) hstack
      rw [Function.iterate_succ_apply, Walk.step, ih _ hnext hn, h.flatMap_below_cons ha,
        List.filter_cons]
      -- a file that is visited is the first of those still to be found
      split_ifs <;> simp

/-! ## Listings -/

/-- The addresses are those of the files of a project, in the order in which a walk finds
them. -/
structure ListsFiles (t : Tree) (project : String) (files : List Address) : Prop where
  /-- Every file of the project is listed, and nothing else. -/
  mem_iff : ∀ a, a ∈ files ↔ a.project = project ∧ t.isFile a = true
  nodup : files.Nodup
  /-- Segments increase name by name, and names are compared byte by byte. -/
  pairwise_segments :
    files.Pairwise fun a b => a.segments.map Text.encode < b.segments.map Text.encode
  /-- Of two full paths the later one comes first just where what is in a folder is listed
  before something that continues the name of the folder. -/
  pairwise_fullPath : files.Pairwise fun a b =>
    Text.encode b.fullPath < Text.encode a.fullPath ↔ Address.ContinuesName a.segments b.segments
  /-- The walk from the project visits as many addresses as there are resources in it,
  and finds these files. -/
  iterate_step : t.hasProject project = true →
    (Walk.step t)^[t.resources.countP (·.address.project = project)] (.start project) = ⟨[], files⟩

/-- **The files of a project are listed completely, without repetition and in order**,
whatever calls have built the tree. -/
theorem listsFiles_applyAll {calls : List Call} (hcalls : ∀ call ∈ calls, call.IsSpelled)
    (project : String) : (Tree.empty.applyAll calls).ListsFiles project
      ((Tree.empty.applyAll calls).files project) := by
  have h : (Tree.empty.applyAll calls).IsBuilt := isBuilt_applyAll hcalls
  generalize Tree.empty.applyAll calls = t at h
  have hsorted := h.pairwise_files project
  exact {
    mem_iff := fun a => h.mem_files
    nodup := h.nodup_files project
    pairwise_segments := hsorted.imp Text.map_encode_lt_map_encode
    pairwise_fullPath := by
      refine (List.Pairwise.and_mem.1 hsorted).imp fun {a b} ⟨ha, hb, hlt⟩ => ?_
      obtain ⟨hproject, -⟩ := h.mem_files.1 ha
      obtain ⟨hproject', hfile⟩ := h.mem_files.1 hb
      obtain ⟨r, hr, -⟩ := isFile_iff.1 hfile
      exact Address.fullPath_lt_fullPath_iff (hproject.trans hproject'.symm) hlt fun n hn =>
        (h.isSegment_of_isSome (Option.isSome_of_eq_some hr) n hn).slash_notMem
    iterate_step := fun hproject => by
      have hstack : ∀ a ∈ [Address.ofProject project], (t.get? a).isSome = true :=
        List.forall_mem_singleton.2 hproject
      have hwalk := h.iterate_step [] hstack
      rw [List.flatMap_singleton, length_below_ofProject, List.nil_append, ← h.files_eq] at hwalk
      exact hwalk }

/-- A folder beside a file that continues its name, with a folder in it whose name is a
letter of two bytes. One call runs into a file, and one is for another project. -/
def dottedCalls : List Call := [
  .project "P" (.ofString "/ws"),
  .project "Q" (.ofString "/other"),
  .resource "P" ["lib.c"] .file .none,
  .resource "P" ["lib", "é", "x.c"] .file .none,
  .resource "P" ["lib", "z.c"] .file .none,
  .resource "P" ["lib.c", "x.c"] .file .none,
  .resource "Q" ["lib", "x.c"] .file .none]

/-- What is in the folder is listed before the file, whose full path comes first. -/
theorem listsFiles_applyAll_dotted :
    (∀ call ∈ dottedCalls, call.IsSpelled) ∧
      (Tree.empty.applyAll dottedCalls).ListsFiles "P"
        [⟨"P", ["lib", "z.c"]⟩, ⟨"P", ["lib", "é", "x.c"]⟩, ⟨"P", ["lib.c"]⟩] ∧
      (Tree.empty.applyAll dottedCalls).hasProject "P" = true ∧
      Text.encode (Address.fullPath ⟨"P", ["lib.c"]⟩) <
        Text.encode (Address.fullPath ⟨"P", ["lib", "z.c"]⟩) := by
  have hcalls : ∀ call ∈ dottedCalls, call.IsSpelled := by decide
  have hfiles : (Tree.empty.applyAll dottedCalls).files "P" =
      [⟨"P", ["lib", "z.c"]⟩, ⟨"P", ["lib", "é", "x.c"]⟩, ⟨"P", ["lib.c"]⟩] := by cbv
  exact ⟨hcalls, hfiles ▸ listsFiles_applyAll hcalls "P", by decide, by decide⟩

end Tree

end BuildMarkers
