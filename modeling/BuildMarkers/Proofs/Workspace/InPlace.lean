import BuildMarkers.Proofs.Workspace.Position
import Mathlib.Data.Nat.SuccPred
/-!
# Calls in place

Whoever builds a tree in place has one tree, and what a call has done to it stays,
also when the call fails further on (`perform`). Yet no call that fails leaves a
trace. A folder that has just been made is empty, so there is nothing below it
to run into: a call either fails before it makes its first folder, or not at all
(`putFolders_cases`). So working in place comes to the same as `Tree.apply`, which
knows of no tree after a failure (`perform_eq_ok_iff`, `perform_eq_error_iff`). And
a call for a resource that succeeds adds what was missing on the way down to it and
nothing else, and does nothing when it is made again (`perform_after_performAll`).
-/

namespace BuildMarkers

variable {t t' u : Tree} {a b : Address} {r parent : Resource} {name project : String}
  {above names segments : List String} {kind : Kind} {link : Link} {call : Call} {id : ℕ}
  {e : TreeError}

namespace Address

/-- The addresses that the names lead down to, one after the other. -/
def down (a : Address) : List String → List Address
  | [] => []
  | n :: names => a.child n :: (a.child n).down names

theorem down_concat (a : Address) (names : List String) (n : String) :
    a.down (names ++ [n]) = a.down names ++ [⟨a.project, a.segments ++ names ++ [n]⟩] := by
  induction names generalizing a with
  | nil => simp [down, child]
  | cons first names ih => simp [down, ih, child]

/-- They are longer than where the way begins, and no longer than all names
make them. -/
theorem length_of_mem_down (h : b ∈ a.down names) :
    a.segments.length < b.segments.length ∧
      b.segments.length ≤ a.segments.length + names.length := by
  induction names generalizing a with
  | nil => cases h
  | cons n names ih =>
    rcases List.mem_cons.1 h with rfl | h
    · simp
    · have hlength := ih h
      simp only [segments_child, List.length_append, List.length_cons, List.length_nil] at hlength ⊢
      omega

end Address

namespace Tree

/-! ## The same calls without a tree after a failure -/

theorem makeFolders_eq (t : Tree) (parent : Resource) (names : List String) :
    t.makeFolders parent names =
      (t.putFolders parent names).1.map fun r => ((t.putFolders parent names).2, r) := by
  induction names generalizing t parent with
  | nil => rfl
  | cons name rest ih =>
    rw [makeFolders, putFolders]
    cases t.get? (parent.address.child name) with
    | none => exact ih ..
    | some r =>
      simp only
      split_ifs
      · rfl
      · exact ih ..

theorem putFolders_of_makeFolders (h : t.makeFolders parent names = .ok (u, r)) :
    t.putFolders parent names = (.ok r, u) := by
  rw [makeFolders_eq] at h
  rcases hput : t.putFolders parent names with ⟨e | s, v⟩
  · simp [hput, Except.map] at h
  · simpa [hput, Except.map, and_comm] using h

theorem addChild_eq (t : Tree) (parent : Resource) (name : String) (kind : Kind) (link : Link) :
    t.addChild parent name kind link =
      (t.putChild parent name kind link).1.map fun _ => (t.putChild parent name kind link).2 := by
  rw [addChild, putChild]
  cases t.get? (parent.address.child name) with
  | none => rfl
  | some r =>
    simp only
    split_ifs <;> rfl

/-- **A call fails in place as it does otherwise**, and where it succeeds it leaves
the same tree. -/
theorem apply_eq_map_perform (t : Tree) (call : Call) :
    t.apply call = (t.perform call).1.map fun _ => (t.perform call).2 := by
  cases call with
  | project name location =>
    rw [apply, perform, addProject, putProject]
    split_ifs <;> rfl
  | resource project segments kind link =>
    rw [apply, perform, insert, put]
    cases t.get? (.ofProject project) with
    | none => rfl
    | some root =>
      cases segments.getLast? with
      | none => rfl
      | some name =>
        simp only [makeFolders_eq]
        obtain ⟨result, u⟩ := t.putFolders root segments.dropLast
        cases result with
        | error e => rfl
        | ok parent => exact addChild_eq u parent name kind link

/-! ## A failure leaves no trace -/

/-- Nothing is below the address. -/
def IsBare (t : Tree) (a : Address) : Prop := ∀ name, t.get? (a.child name) = none

/-- Nothing is below an address where nothing is: it would be below a container. -/
theorem IsGrown.isBare_of_free (ht : t.IsGrown) (hfree : t.get? a = none) : t.IsBare a := by
  intro n
  refine Option.eq_none_iff_forall_ne_some.2 fun r hr => ?_
  obtain ⟨p, hp, -⟩ := ht.exists_above hr
  exact absurd (hfree.symm.trans hp) (by simp)

/-- Nothing is below a resource that has just been made. -/
theorem IsGrown.isBare_push (ht : t.IsGrown) (hfree : t.get? (parent.address.child name) = none) :
    (t.push parent name kind link).IsBare (parent.address.child name) := by
  intro n
  rw [get?_push_of_ne (Address.ne_child _ _)]
  exact ht.isBare_of_free hfree n

/-- Below an empty folder all folders are made, and the last one is empty. -/
theorem exists_putFolders_of_isBare (ht : t.IsGrown) (hparent : t.get? parent.address = some parent)
    (hcontainer : parent.isContainer = true) (hbare : t.IsBare parent.address) :
    ∃ r, (t.putFolders parent names).1 = .ok r ∧
      (t.putFolders parent names).2.IsBare r.address := by
  induction names generalizing t parent with
  | nil => exact ⟨parent, rfl, hbare⟩
  | cons name names ih =>
    rw [putFolders, hbare name]
    exact ih (ht.push hparent hcontainer (hbare name)) (get?_push_self (hbare name)) rfl
      (ht.isBare_push (hbare name))

/-- **The way down changes nothing, or it ends at an empty folder.** The first folder
that is made is an empty one, and so are those below it. -/
theorem putFolders_cases (ht : t.IsGrown) (hparent : t.get? parent.address = some parent)
    (hcontainer : parent.isContainer = true) (names : List String) :
    (t.putFolders parent names).2 = t ∨
      ∃ r, (t.putFolders parent names).1 = .ok r ∧
        (t.putFolders parent names).2.IsBare r.address := by
  induction names generalizing parent with
  | nil => exact .inl rfl
  | cons name names ih =>
    rw [putFolders]
    cases hchild : t.get? (parent.address.child name) with
    | none =>
      exact .inr (exists_putFolders_of_isBare (ht.push hparent hcontainer hchild)
        (get?_push_self hchild) rfl (ht.isBare_push hchild))
    | some s =>
      simp only
      split_ifs with hfile
      · exact .inl rfl
      · exact ih (address_of_get? hchild ▸ hchild) (by simpa using hfile)

/-- In an empty folder the last step does not fail, and elsewhere it changes
nothing where it does. -/
theorem putChild_eq_error (h : (t.putChild parent name kind link).1 = .error e) :
    ¬ t.IsBare parent.address ∧ (t.putChild parent name kind link).2 = t := by
  unfold putChild at h ⊢
  cases hchild : t.get? (parent.address.child name) with
  | none =>
    rw [hchild] at h
    cases h
  | some r =>
    simp only [hchild] at h ⊢
    split_ifs at h ⊢
    exact ⟨fun hbare => absurd (hchild.symm.trans (hbare name)) (by simp), rfl⟩

/-- **A call that fails leaves the tree as it was.** -/
theorem snd_perform_of_error (ht : t.IsGrown) (h : (t.perform call).1 = .error e) :
    (t.perform call).2 = t := by
  cases call with
  | project name location =>
    rw [perform, putProject] at h ⊢
    split_ifs at h ⊢
    rfl
  | resource project segments kind link =>
    rw [perform, put] at h ⊢
    cases hroot : t.get? (.ofProject project) with
    | none => rfl
    | some root =>
      cases hlast : segments.getLast? with
      | none => rfl
      | some name =>
        have haddress : root.address = .ofProject project := address_of_get? hroot
        have hcases := putFolders_cases ht (haddress ▸ hroot) (ht.isContainer_of_root hroot)
          segments.dropLast
        simp only [hroot, hlast] at h ⊢
        rcases hput : t.putFolders root segments.dropLast with ⟨_ | parent, u⟩
        · rw [hput] at hcases
          exact hcases.resolve_right (by simp)
        · rw [hput] at h hcases
          -- the last step ran into something, so no folder was made on the way to it
          obtain ⟨hfull, hsame⟩ := putChild_eq_error h
          refine hsame.trans (hcases.resolve_right ?_)
          rintro ⟨r, hr, hbare⟩
          exact hfull (Except.ok.inj hr ▸ hbare)

/-! ## Positions -/

theorem putChild_eq_ok (h : t.putChild parent name kind link = (.ok id, t')) :
    id = t'.position (parent.address.child name) := by
  unfold putChild at h
  cases hchild : t.get? (parent.address.child name) with
  | none =>
    simp only [hchild, Prod.mk.injEq, Except.ok.injEq] at h
    obtain ⟨rfl, rfl⟩ := h
    exact (position_append_singleton (r := parent.below name kind link) hchild).symm
  | some r =>
    simp only [hchild] at h
    split_ifs at h
    · cases h
      rw [address_of_get? hchild]
    · cases h

/-- **A call that succeeds returns the position** of what it is about. -/
theorem eq_position_of_perform (ht : t.IsGrown) (h : t.perform call = (.ok id, t')) :
    id = t'.position call.address := by
  cases call with
  | project name location =>
    rw [perform, putProject] at h
    split_ifs at h with hproject
    · cases h
    cases h
    have hfree : t.get? (.ofProject name) = none := by simpa [hasProject] using hproject
    exact (position_append_singleton (r := .root name location.location) hfree).symm
  | resource project segments kind link =>
    have hok : t.insert project segments kind link = .ok t' := by
      have happly := apply_eq_map_perform t (.resource project segments kind link)
      rwa [h] at happly
    obtain ⟨above, name, root, u, parent, rfl, hreaches, -⟩ := exists_reaches_of_insert ht hok
    have hfolders := putFolders_of_makeFolders hreaches.folders
    rw [perform, put, hreaches.get?_root] at h
    simp only [List.getLast?_concat, List.dropLast_concat, hfolders] at h
    rw [putChild_eq_ok h, hreaches.address_parent]
    rfl

/-! ## Calls in place and the others -/

/-- **A call that fails in place** fails otherwise, and leaves the tree. -/
theorem perform_eq_error_iff (ht : t.IsGrown) :
    t.perform call = (.error e, t') ↔ t.apply call = .error e ∧ t' = t := by
  have happly := apply_eq_map_perform t call
  rcases hperform : t.perform call with ⟨e' | id, u⟩
  · rw [hperform] at happly
    have hsame : u = t := by
      simpa [hperform] using snd_perform_of_error ht (congrArg Prod.fst hperform)
    rw [happly, hsame]
    simp [Except.map, eq_comm]
  · rw [happly, hperform]
    simp [Except.map]

/-- **A call that succeeds in place** succeeds otherwise, with the same tree. -/
theorem perform_eq_ok_iff (ht : t.IsGrown) :
    t.perform call = (.ok id, t') ↔ t.apply call = .ok t' ∧ id = t'.position call.address := by
  have happly := apply_eq_map_perform t call
  constructor
  · intro h
    rw [happly, h]
    exact ⟨rfl, eq_position_of_perform ht h⟩
  · rintro ⟨hok, rfl⟩
    rcases hperform : t.perform call with ⟨e | id, u⟩
    · simp [happly, hperform, Except.map] at hok
    · obtain rfl : u = t' := by simpa [happly, hperform, Except.map] using hok
      rw [eq_position_of_perform ht hperform]

theorem isGrown_applyAll (ht : t.IsGrown) (calls : List Call) : (t.applyAll calls).IsGrown :=
  applyAll_induction ht fun _ _ _ _ ht h => (apply_eq_ok ht h).2

/-- **Whatever calls are made in place, those that fail have no effect.** -/
theorem performAll_eq_applyAll (ht : t.IsGrown) (calls : List Call) :
    t.performAll calls = t.applyAll calls := by
  induction calls generalizing t with
  | nil => rfl
  | cons call calls ih =>
    have hnext : (t.perform call).2 = (t.apply call).toOption.getD t := by
      cases happly : t.apply call with
      | ok t' =>
        rw [((perform_eq_ok_iff ht).2 ⟨happly, rfl⟩ : t.perform call = (.ok _, t'))]
        rfl
      | error e =>
        rw [((perform_eq_error_iff ht).2 ⟨happly, rfl⟩ : t.perform call = (.error e, t))]
        rfl
    have hgrown : ((t.apply call).toOption.getD t).IsGrown := isGrown_applyAll ht [call]
    rw [performAll, List.foldl_cons, hnext]
    exact ih hgrown

/-! ## What a successful call adds -/

/-- Every address that had no resource has one now, and no other has: the new ones
are behind the others and in the order of the addresses. -/
def Fills (t : Tree) (as : List Address) (t' : Tree) : Prop :=
  t'.resources.map (·.address) = t.resources.map (·.address) ++ as.filter fun a => (t.get? a).isNone

theorem isNone_get?_iff : (t.get? a).isNone = true ↔ a ∉ t.resources.map (·.address) := by
  rw [← Option.not_isSome, Bool.not_eq_true', ← Bool.not_eq_true, get?_isSome_iff, List.mem_map]

theorem Fills.nil (t : Tree) : t.Fills [] t := by
  simp [Fills]

theorem fills_push (hfree : t.get? (parent.address.child name) = none) :
    t.Fills [parent.address.child name] (t.push parent name kind link) := by
  simp [Fills, push, Resource.below, hfree]

theorem fills_of_get? (hr : t.get? a = some r) : t.Fills [a] t := by
  simp [Fills, hr]

/-- Addresses may be filled one part after the other. -/
theorem Fills.append {as bs : List Address} (h : t.Fills as u) (h' : u.Fills bs t')
    (hdistinct : ∀ b ∈ bs, b ∉ as) : t.Fills (as ++ bs) t' := by
  have hfree : bs.filter (fun b => (u.get? b).isNone) = bs.filter fun b => (t.get? b).isNone := by
    refine List.filter_congr fun b hb => ?_
    have hnot : b ∉ as.filter fun a => (t.get? a).isNone := fun hmem =>
      hdistinct b hb (List.mem_of_mem_filter hmem)
    rw [Bool.eq_iff_iff, isNone_get?_iff, isNone_get?_iff, h, List.mem_append, or_iff_left hnot]
  rw [Fills, h', h, hfree, List.filter_append, List.append_assoc]

theorem makeFolders_fills (h : t.makeFolders parent names = .ok (t', r)) :
    t.Fills (parent.address.down names) t' := by
  induction names generalizing t parent with
  | nil =>
    cases h
    exact .nil _
  | cons name names ih =>
    have hdistinct : ∀ b ∈ (parent.address.child name).down names,
        b ∉ [parent.address.child name] := by
      intro b hb hmem
      have hlength := (Address.length_of_mem_down hb).1
      rw [List.mem_singleton.1 hmem] at hlength
      exact lt_irrefl _ hlength
    rw [makeFolders] at h
    cases hchild : t.get? (parent.address.child name) with
    | none =>
      rw [hchild] at h
      exact (fills_push hchild).append (ih h) hdistinct
    | some s =>
      rw [hchild] at h
      simp only at h
      split_ifs at h
      have hrest : t.Fills ((parent.address.child name).down names) t' :=
        address_of_get? hchild ▸ ih h
      exact (fills_of_get? hchild).append hrest hdistinct

theorem addChild_fills (h : t.addChild parent name kind link = .ok t') :
    t.Fills [parent.address.child name] t' := by
  unfold addChild at h
  cases hchild : t.get? (parent.address.child name) with
  | none =>
    simp only [hchild, Except.ok.injEq] at h
    exact h ▸ fills_push hchild
  | some s =>
    simp only [hchild] at h
    split_ifs at h
    cases h
    exact fills_of_get? hchild

/-- **A call for a resource adds what is missing on the way down**, and nothing
else. -/
theorem insert_fills (ht : t.IsGrown) (h : t.insert project segments kind link = .ok t') :
    t.Fills ((Address.ofProject project).down segments) t' := by
  obtain ⟨above, name, root, u, parent, rfl, hreaches, hchild⟩ := exists_reaches_of_insert ht h
  have hfill := makeFolders_fills hreaches.folders
  have hlast := addChild_fills hchild
  rw [hreaches.address_root] at hfill
  rw [hreaches.address_parent] at hlast
  rw [Address.down_concat]
  refine hfill.append hlast fun b hb hmem => ?_
  have hlength := (Address.length_of_mem_down hmem).2
  rw [List.mem_singleton.1 hb] at hlength
  simp at hlength

/-- The second tree is what a successful call leaves that asks for a resource of the
project, at the path, and returns the position. -/
structure Adds (t : Tree) (project path : String) (kind : Kind) (link : Link) (id : ℕ) (t' : Tree) :
    Prop where
  /-- What has the position is of the kind and has the link that the call asks for.
  Its segments are those of the path, empty ones and `.` left out. -/
  asked : ∃ r, t'.resources[id]? = some r ∧ r.address.project = project ∧
    r.address.segments =
      ((path.toList.splitOn '/').map String.ofList).filter (fun s => s ≠ "" ∧ s ≠ ".") ∧
    r.kind = kind ∧ r.link.same link = true
  /-- The segments lead down to it from the project. -/
  leads : ∃ root, t'.get? (.ofProject project) = some root ∧
    t'.descend? root (segmentsOf path) = t'.resources[id]?
  /-- What was there has kept its position and is as it was. -/
  kept : ∀ {i : ℕ} {r : Resource}, t.resources[i]? = some r → t'.resources[i]? = some r
  /-- The same goes for children. -/
  children : ∀ {a : Address} {n : String}, n ∈ t.children a →
    n ∈ t'.children a ∧ t'.position (a.child n) = t.position (a.child n)
  /-- New are the resources that were missing on the way down, in this order. -/
  fills : t'.resources.map (·.address) = t.resources.map (·.address) ++
    ((Address.ofProject project).down (segmentsOf path)).filter fun a => (t.get? a).isNone
  /-- The last of these is the one that the call asks for, and the others are plain
  folders. -/
  made : ∀ r ∈ t'.resources, r ∈ t.resources ∨ Made project (segmentsOf path) kind link r
  /-- The call does nothing the second time, and returns the same. -/
  again : t'.perform (.resource project (segmentsOf path) kind link) = (.ok id, t')

/-- **A successful call for a resource adds it and nothing else.** -/
theorem IsGrown.adds {path : String} (ht : t.IsGrown)
    (h : t.perform (.resource project (segmentsOf path) kind link) = (.ok id, t')) :
    t.Adds project path kind link id t' := by
  obtain ⟨hok, rfl⟩ := (perform_eq_ok_iff ht).1 h
  obtain ⟨hgrows, hgrown, above, name, parent, link', hsegments, hlink, hparent, hget, -⟩ :=
    insert_eq_ok ht hok
  have hposition := getElem?_position t' ⟨project, segmentsOf path⟩
  obtain ⟨root, hroot⟩ :=
    Option.isSome_iff_exists.1 (hgrown.isSome_root (Option.isSome_of_eq_some hget))
  exact {
    asked := by
      refine ⟨_, hposition.trans hget, ?_, ?_, rfl, hlink⟩
      · rw [address_of_get? hget]
      · rw [address_of_get? hget, segmentsOf_eq]
    leads := ⟨root, hroot,
      (hgrown.descend?_eq hroot hget).trans (hposition.trans hget).symm⟩
    kept := fun hr => hgrows.getElem?_eq_some hr
    children := fun hn => by
      rw [mem_children] at hn ⊢
      exact ⟨hgrows.isSome hn, hgrows.position_eq hn⟩
    fills := insert_fills ht hok
    made := fun r hr => ((insert_extends ht hok).mem_or hr).imp_right And.left
    again := by
      refine (perform_eq_ok_iff hgrown).2 ⟨?_, rfl⟩
      rw [hsegments] at hget ⊢
      exact insert_of_get? hgrown hget hlink }

/-- **After any calls, a call that fails changes nothing, and a call for a resource
that succeeds adds what it asks for and nothing else.** The calls in place are those
of `apply`. -/
theorem perform_after_performAll (calls : List Call) :
    Tree.empty.performAll calls = Tree.empty.applyAll calls ∧
      (∀ call, (Tree.empty.performAll calls).apply call =
        ((Tree.empty.performAll calls).perform call).1.map fun _ =>
          ((Tree.empty.performAll calls).perform call).2) ∧
      (∀ call e t', (Tree.empty.performAll calls).perform call = (.error e, t') →
        t' = Tree.empty.performAll calls) ∧
      ∀ project path kind link id t',
        (Tree.empty.performAll calls).perform (.resource project (segmentsOf path) kind link) =
          (.ok id, t') →
        (Tree.empty.performAll calls).Adds project path kind link id t' := by
  have hsame : Tree.empty.performAll calls = Tree.empty.applyAll calls :=
    performAll_eq_applyAll isGrown_empty calls
  have hgrown : (Tree.empty.performAll calls).IsGrown :=
    hsame ▸ isGrown_applyAll isGrown_empty calls
  exact ⟨hsame, fun call => apply_eq_map_perform _ call,
    fun call e t' h => ((perform_eq_error_iff hgrown).1 h).2,
    fun project path kind link id t' h => hgrown.adds h⟩

/-- A project with a file and with a link. -/
def libraryCalls : List Call := [
  .project "P" (.ofString "/ws"),
  .resource "P" ["a", "b.c"] .file .none,
  .resource "P" ["lib"] .folder (.linked (.ofString "/opt/lib"))]

/-- Nothing is made below the file, a folder is made on the way to a new file, and another
spelling of the path and of the target finds the link again. -/
theorem perform_after_performAll_library :
    ((Tree.empty.performAll libraryCalls).perform
      (.resource "P" ["a", "b.c", "x.h"] .file .none)).2 =
        Tree.empty.performAll libraryCalls ∧
      (∃ t', (Tree.empty.performAll libraryCalls).Adds "P" "a//new/./x.h" .file .none 5 t') ∧
      (Tree.empty.performAll libraryCalls).Adds "P" "./lib/" .folder
        (.linked (.ofString "/opt/./lib/")) 3 (Tree.empty.performAll libraryCalls) := by
  obtain ⟨-, -, herror, hadds⟩ := perform_after_performAll libraryCalls
  refine ⟨?_, ?_, ?_⟩
  · exact herror _ (.notFolder "/P/a/b.c") _ (Prod.ext (by decide) rfl)
  · exact ⟨_, hadds _ _ _ _ _ _ (Prod.ext (by decide) rfl)⟩
  · exact hadds _ _ _ _ _ _ (by decide)

end Tree

end BuildMarkers
