import BuildMarkers.Proofs.Workspace.Listing
import Mathlib.Data.Set.Insert
/-!
# The spellings of a resource

Which paths lead to a resource can be told from the names and links down to it and
from where its project lies. A plain child is reached by its name behind every
spelling of its parent, and a symbolic link by its target too, as it is meant from
where the parent lies; what a configured link places elsewhere is reached there
alone (`spellingsOf`). A tree notes spellings as resources are added to it, one by
one, from what it has noted of the parent, and in the end it has noted just these
(`IsBuilt.noted`), so each resource is found under all of its spellings and under no
other (`foundAt_of_applyAll`).
-/

namespace BuildMarkers

variable {t t' : Tree} {a : Address} {r parent : Resource} {name project : String} {kind : Kind}
  {link : Link} {calls : List Call} {made : Resource → Prop} {home : String → Option Path}
  {l location : Route} {target : Path}

/-- What is behind the link can be reached through it: the link does not place it
elsewhere, and it does not dangle. -/
def Link.isOpen : Link → Bool
  | .none => true
  | .linked _ => false
  | .symbolic _ present => present

theorem Address.chain_child (a : Address) (name : String) :
    (a.child name).chain = a.chain ++ [a.child name] := by
  rw [chain, chain, segments_child, List.length_append, List.length_singleton, List.range_succ,
    List.map_append, List.map_singleton]
  congr 1
  · refine List.map_congr_left fun n hn => ?_
    have hn : n ≤ a.segments.length := Nat.lt_succ_iff.1 (List.mem_range.1 hn)
    rw [List.take_append_of_le_length hn, project_child]
  · rw [List.take_of_length_le (by simp)]
    rfl

namespace Resource

/-- A child that no configured link leads to is found where it lies and through the
spellings of its parent. -/
theorem mem_spellings_below (hlocation : parent.locationOf name link = some location)
    (hlink : ∀ target, link ≠ .linked target) :
    l ∈ (parent.below name kind link).spellings ↔
      l = location ∨ l ∈ parent.spellingsBelow name := by
  have haliases : parent.aliasesOf name link (some location) =
      (parent.spellingsBelow name).filter (· ≠ location) := by
    cases link with
    | linked target => exact absurd rfl (hlink target)
    | none => rfl
    | symbolic target present => rfl
  simp only [spellings, below, hlocation, haliases, Option.toList_some, List.singleton_append,
    List.mem_cons, List.mem_filter, ne_eq, decide_eq_true_eq]
  by_cases hl : l = location <;> simp [hl]

theorem mem_spellingsBelow : l ∈ parent.spellingsBelow name ↔
    ∃ s ∈ parent.spellings, s ++ [.ofSegment name] = l :=
  List.mem_map

/-- A child that lies nowhere is found nowhere. -/
theorem spellings_below_of_none (hlocation : parent.locationOf name link = none) :
    (parent.below name kind link).spellings = [] := by
  simp [spellings, below, hlocation]

/-- A plain child has no others than those, since it lies behind the location of its
parent. -/
theorem mem_spellings_below_plain (hnowhere : parent.location = none → parent.spellings = []) :
    l ∈ (parent.below name kind .none).spellings ↔ l ∈ parent.spellingsBelow name := by
  cases hlocation : parent.location with
  | none =>
    simp [spellings_below_of_none, locationOf, Link.locationBelow, spellingsBelow,
      hlocation, hnowhere]
  | some location =>
    have hbelow : location ++ [.ofSegment name] ∈ parent.spellingsBelow name :=
      mem_spellingsBelow.2 ⟨location, by simp [spellings, hlocation], rfl⟩
    have hchild : parent.locationOf name .none = some (location ++ [.ofSegment name]) := by
      simp [locationOf, Link.locationBelow, hlocation]
    rw [mem_spellings_below hchild (by simp)]
    exact ⟨fun h => h.elim (fun h => h ▸ hbelow) id, .inr⟩

end Resource

namespace Tree

/-- The link of the resource at the address. -/
def linkAt (t : Tree) (a : Address) : Option Link := (t.get? a).map (·.link)

/-! ## What the links say -/

/-- Where a resource lies, as the links down to it say; its last name comes first. -/
def lies (t : Tree) (home : String → Option Path) (project : String) : List String → Option Route
  | [] => (home project).map Path.location
  | name :: back =>
    match t.linkAt ⟨project, (name :: back).reverse⟩ with
    | some .none => (t.lies home project back).map (· ++ [.ofSegment name])
    | some (.linked target) => some target.location
    | some (.symbolic target true) =>
      match t.lies home project back with
      | some location => some (location.join target.route).normalize
      | none => if target.isAbsolute then some target.location else none
    | _ => none

/-- Its spellings, as the links down to it say. -/
def spelled (t : Tree) (home : String → Option Path) (project : String) : List String → Set Route
  | [] => {l | (home project).map Path.location = some l}
  | name :: back =>
    let continued := (· ++ [.ofSegment name]) '' t.spelled home project back
    match t.linkAt ⟨project, (name :: back).reverse⟩ with
    | some .none => continued
    | some (.linked target) => {target.location}
    | some (.symbolic target true) =>
      match t.lies home project back with
      | some location => {(location.join target.route).normalize} ∪ continued
      | none => if target.isAbsolute then {target.location} else ∅
    | _ => ∅

/-- Where the resource at the address lies, its project lying at home. -/
def placeOf (t : Tree) (home : String → Option Path) (a : Address) : Option Route :=
  t.lies home a.project a.segments.reverse

/-- All spellings of the resource at the address. -/
def spellingsOf (t : Tree) (home : String → Option Path) (a : Address) : Set Route :=
  t.spelled home a.project a.segments.reverse

theorem placeOf_child : t.placeOf home (a.child name) =
    match t.linkAt (a.child name) with
    | some .none => (t.placeOf home a).map (· ++ [.ofSegment name])
    | some (.linked target) => some target.location
    | some (.symbolic target true) =>
      match t.placeOf home a with
      | some location => some (location.join target.route).normalize
      | none => if target.isAbsolute then some target.location else none
    | _ => none := by
  rw [placeOf, Address.segments_child, List.reverse_concat, lies, List.reverse_cons,
    List.reverse_reverse]
  rfl

theorem spellingsOf_child : t.spellingsOf home (a.child name) =
    let continued := (· ++ [.ofSegment name]) '' t.spellingsOf home a
    match t.linkAt (a.child name) with
    | some .none => continued
    | some (.linked target) => {target.location}
    | some (.symbolic target true) =>
      match t.placeOf home a with
      | some location => {(location.join target.route).normalize} ∪ continued
      | none => if target.isAbsolute then {target.location} else ∅
    | _ => ∅ := by
  rw [spellingsOf, Address.segments_child, List.reverse_concat, spelled, List.reverse_cons,
    List.reverse_reverse]
  rfl

/-! ## What a tree has noted -/

/-- The projects of the tree lie at home. -/
def IsAtHome (t : Tree) (home : String → Option Path) : Prop :=
  ∀ name, t.get? (.ofProject name) = (home name).map fun location => .root name location.location

/-- **A tree has noted** where each of its resources lies and all spellings of it. The
induction is on the address, from the project down. -/
theorem IsBuilt.noted (ht : t.IsBuilt) (hhome : t.IsAtHome home) (hr : t.get? a = some r) :
    r.location = t.placeOf home a ∧ (∀ l, l ∈ r.spellings ↔ l ∈ t.spellingsOf home a) ∧
      (r.location = none → r.spellings = []) := by
  induction a using Address.childInduction generalizing r with
  | project name =>
    rw [hhome] at hr
    obtain ⟨location, hlocation, rfl⟩ := Option.map_eq_some_iff.1 hr
    refine ⟨?_, fun l => ?_, nofun⟩
    · rw [placeOf, Address.segments_ofProject, List.reverse_nil, lies,
        Address.project_ofProject, hlocation]
      rfl
    · rw [spellingsOf, Address.segments_ofProject, List.reverse_nil, spelled,
        Address.project_ofProject, hlocation]
      simp [Resource.spellings, Resource.root, eq_comm]
  | child a name ih =>
    obtain ⟨parent, hparent, -⟩ := ht.isGrown.exists_above hr
    obtain ⟨hplace, hspellings, hnowhere⟩ := ih hparent
    obtain rfl : parent.address = a := address_of_get? hparent
    have hlink : t.linkAt (parent.address.child name) = some r.link := by
      rw [linkAt, hr, Option.map_some]
    have hbelow := ht.isGrown.eq_below hparent hr
    generalize r.kind = kind at hbelow
    generalize r.link = link at hbelow hlink
    subst hbelow
    have hcontinued (l : Route) : l ∈ parent.spellingsBelow name ↔
        l ∈ (· ++ [.ofSegment name]) '' t.spellingsOf home parent.address := by
      simp only [Resource.mem_spellingsBelow, hspellings, Set.mem_image]
    rw [placeOf_child, spellingsOf_child, hlink, ← hplace]
    refine ⟨?_, fun l => ?_, Resource.spellings_below_of_none⟩
    · cases link with
      | symbolic target present => cases present <;> rfl
      | _ => rfl
    · cases link with
      | none => rw [Resource.mem_spellings_below_plain hnowhere, hcontinued]
      | linked target =>
        simp [Resource.below, Resource.spellings, Resource.locationOf, Link.locationBelow,
          Resource.aliasesOf, Link.aliasesAmong]
      | symbolic target present =>
        cases present with
        | false =>
          rw [Resource.spellings_below_of_none rfl]
          simp
        | true =>
          cases hlocation : parent.location with
          | some location =>
            have hchild : parent.locationOf name (.symbolic target true) =
                some (location.join target.route).normalize := by
                  simp [Resource.locationOf, Link.locationBelow, hlocation]
            rw [Resource.mem_spellings_below hchild (by simp), hcontinued]
            rfl
          | none =>
            by_cases habs : target.isAbsolute = true
            · have hchild : parent.locationOf name (.symbolic target true) =
                  some target.location := by
                simp [Resource.locationOf, Link.locationBelow, hlocation, habs]
              rw [Resource.mem_spellings_below hchild (by simp)]
              simp [Resource.spellingsBelow, hnowhere hlocation, habs]
            · simp [Resource.spellings_below_of_none, Resource.locationOf, Link.locationBelow,
                hlocation, habs]

/-! ## Where projects lie -/

end Tree

/-- Where the first call for the project puts it. -/
def homeOf (calls : List Call) (name : String) : Option Path :=
  calls.findSome? fun
    | .project n location => if n = name then some location else none
    | .resource _ _ _ _ => none

namespace Tree

/-- A call for a resource puts no project elsewhere. -/
theorem Extends.get?_ofProject (h : t.Extends made t') (name : String) :
    t'.get? (.ofProject name) = t.get? (.ofProject name) := by
  induction h with
  | refl => rfl
  | tail _ hgains ih =>
    cases hgains with
    | push _ _ _ _ =>
      have hbelow {a : Address} {n : String} : a.child n ≠ .ofProject name := fun h =>
        Address.segments_child_ne_nil (congrArg Address.segments h)
      rw [get?_push_of_ne hbelow, ih]

/-- A call for a project puts that project where it says. -/
theorem get?_ofProject_of_addProject {n : String} {location : Path}
    (h : t.addProject n location = .ok t') (name : String) :
    t'.get? (.ofProject name) =
      (t.get? (.ofProject name)).or
        (if n = name then some (.root name location.location) else none) := by
  unfold addProject at h
  split_ifs at h with hproject
  cases h
  rw [get?_append_singleton]
  by_cases hname : n = name
  · rw [hname, if_pos rfl, if_pos rfl]
    rfl
  · have hother : Address.ofProject n ≠ .ofProject name :=
      fun h => hname (congrArg Address.project h)
    rw [if_neg hother, if_neg hname]

/-- **A project lies where the first call for it puts it.** -/
theorem IsGrown.get?_ofProject_applyAll (ht : t.IsGrown) (calls : List Call) (name : String) :
    (t.applyAll calls).get? (.ofProject name) = (t.get? (.ofProject name)).or
      ((homeOf calls name).map fun location => .root name location.location) := by
  induction calls generalizing t with
  | nil => simp [applyAll, homeOf]
  | cons call calls ih =>
    have hnext : t.applyAll (call :: calls) = ((t.apply call).toOption.getD t).applyAll calls := rfl
    rw [hnext]
    cases call with
    | project n location =>
      have hhome : homeOf (.project n location :: calls) name =
          if n = name then some location else homeOf calls name := by
        rw [homeOf, List.findSome?_cons]
        by_cases hname : n = name
        · simp [hname]
        · simp [hname, homeOf]
      rw [hhome]
      cases h : t.apply (.project n location) with
      | error e =>
        refine (ih ht).trans ?_
        rw [apply, addProject] at h
        split_ifs at h with hproject
        obtain ⟨r, hr⟩ := Option.isSome_iff_exists.1 hproject
        by_cases hname : n = name
        · rw [← hname, hr, Option.some_or, Option.some_or]
        · rw [if_neg hname]
      | ok t' =>
        refine (ih (apply_eq_ok ht h).2).trans ?_
        rw [get?_ofProject_of_addProject h, Option.or_assoc]
        by_cases hname : n = name
        · rw [if_pos hname, if_pos hname, Option.some_or]
          rfl
        · rw [if_neg hname, if_neg hname, Option.none_or]
    | resource project segments kind link =>
      have hhome : homeOf (.resource project segments kind link :: calls) name =
          homeOf calls name := rfl
      rw [hhome]
      cases h : t.apply (.resource project segments kind link) with
      | error e => exact ih ht
      | ok t' =>
        exact (ih (apply_eq_ok ht h).2).trans (by rw [(insert_extends ht h).get?_ofProject])

theorem isAtHome_applyAll (calls : List Call) :
    (Tree.empty.applyAll calls).IsAtHome (homeOf calls) := by
  intro name
  rw [isGrown_empty.get?_ofProject_applyAll]
  rfl

/-! ## What a location leads to -/

/-- **Where no link on the way leads elsewhere or nowhere**, the names behind the location
of the project are a spelling, through however many symbolic links they lead. -/
theorem IsBuilt.mem_spellingsOf (ht : t.IsBuilt) (hhome : t.IsAtHome home) (ha : (t.get? a).isSome)
    (hopen : ∀ b ∈ a.chain, ∀ link ∈ t.linkAt b, link.isOpen) :
    ∃ location, home a.project = some location ∧
      location.location ++ a.segments.map .ofSegment ∈ t.spellingsOf home a := by
  obtain ⟨r, hr⟩ := Option.isSome_iff_exists.1 ha
  clear ha
  induction a using Address.childInduction generalizing r with
  | project name =>
    rw [hhome] at hr
    obtain ⟨location, hlocation, -⟩ := Option.map_eq_some_iff.1 hr
    refine ⟨location, hlocation, ?_⟩
    simp [spellingsOf, spelled, hlocation]
  | child a name ih =>
    rw [Address.chain_child, forall_mem_concat] at hopen
    obtain ⟨parent, hparent, -⟩ := ht.isGrown.exists_above hr
    obtain ⟨location, hlocation, hspelling⟩ := ih hopen.1 parent hparent
    have hlink : t.linkAt (a.child name) = some r.link := by rw [linkAt, hr, Option.map_some]
    have hlinkOpen := hopen.2 r.link hlink
    have hcontinued : location.location ++ (a.child name).segments.map .ofSegment ∈
        (· ++ [.ofSegment name]) '' t.spellingsOf home a :=
      ⟨_, hspelling, by rw [Address.segments_child, List.map_append, ← List.append_assoc]; rfl⟩
    refine ⟨location, hlocation, ?_⟩
    rw [spellingsOf_child, hlink]
    cases hr' : r.link with
    | none => exact hcontinued
    | linked target => simp [hr', Link.isOpen] at hlinkOpen
    | symbolic target present =>
      obtain rfl : present = true := by simpa [hr', Link.isOpen] using hlinkOpen
      -- what is found somewhere lies somewhere
      obtain ⟨hplace, hspellings, hnowhere⟩ := ht.noted hhome hparent
      cases hlies : parent.location with
      | none =>
        have := (hspellings _).2 hspelling
        rw [hnowhere hlies] at this
        exact absurd this List.not_mem_nil
      | some place =>
        rw [← hplace, hlies]
        exact .inr hcontinued

/-- **A location leads to the resources that it is a spelling of**, to each of them once
and to no other. A resource with no configured link and no dangling one on the way to it
is found behind its project. -/
theorem foundAt_of_applyAll (hcalls : ∀ c ∈ calls, c.IsSpelled) :
    let t := Tree.empty.applyAll calls
    (∀ l, (t.foundAt l).Nodup ∧
      ∀ r, r ∈ t.foundAt l ↔ r ∈ t.resources ∧ l ∈ t.spellingsOf (homeOf calls) r.address) ∧
    ∀ r ∈ t.resources, (∀ a ∈ r.address.chain, ∀ link ∈ t.linkAt a, link.isOpen) →
      ∃ location, homeOf calls r.address.project = some location ∧
        r ∈ t.foundAt (location.location ++ r.address.segments.map .ofSegment) := by
  intro t
  have ht : t.IsBuilt := isBuilt_applyAll hcalls
  have hhome : t.IsAtHome (homeOf calls) := isAtHome_applyAll calls
  have hfound (l : Route) (r : Resource) :
      r ∈ t.foundAt l ↔ r ∈ t.resources ∧ l ∈ t.spellingsOf (homeOf calls) r.address := by
    rw [foundAt, List.mem_filter, List.contains_iff_mem]
    refine and_congr_right fun hr => ?_
    exact (ht.noted hhome (ht.isGrown.unique r hr)).2.1 l
  refine ⟨fun l => ⟨(ht.nodup.of_map _).filter _, hfound l⟩, fun r hr hopen => ?_⟩
  have hsome : (t.get? r.address).isSome := by rw [ht.isGrown.unique r hr, Option.isSome_some]
  obtain ⟨location, hlocation, hspelling⟩ := ht.mem_spellingsOf hhome hsome hopen
  exact ⟨location, hlocation, (hfound _ r).2 ⟨hr, hspelling⟩⟩

/-- A symbolic link in what another one leads to, and a file behind both. -/
def callsOfNested : List Call := [
  .project "P" (.ofString "/ws/./P"),
  .resource "P" ["out"] .folder (.symbolic (.ofString "/build") true),
  .resource "P" ["out", "gen"] .folder (.symbolic (.ofString "../cache/gen") true),
  .resource "P" ["out", "gen", "x.c"] .file .none]

/-- Paths to the file: where it lies, through the inner link, and through both. -/
def pathsOfNested : List Path :=
  [.ofString "/cache/gen/x.c", .ofString "/build/gen/x.c", .ofString "/ws/P/out/gen/x.c"]

/-- The file is found under all three, and they are spellings of it. -/
theorem foundAt_of_applyAll_nested :
    let t := Tree.empty.applyAll callsOfNested
    (∀ c ∈ callsOfNested, c.IsSpelled) ∧
      ∃ r, r.address = ⟨"P", ["out", "gen", "x.c"]⟩ ∧
        (∀ a ∈ r.address.chain, ∀ link ∈ t.linkAt a, link.isOpen) ∧
        ∀ path ∈ pathsOfNested,
          r ∈ t.foundAt path.route ∧ path.route ∈
            t.spellingsOf (homeOf callsOfNested) r.address := by
  have hcalls : ∀ c ∈ callsOfNested, c.IsSpelled := by decide +kernel
  obtain ⟨hfound, -⟩ := foundAt_of_applyAll hcalls
  intro t
  have hget : (t.get? ⟨"P", ["out", "gen", "x.c"]⟩).isSome := by decide +kernel
  obtain ⟨r, hr⟩ := Option.isSome_iff_exists.1 hget
  have haddress := address_of_get? hr
  have hpaths : ∀ path ∈ pathsOfNested, ∀ s ∈ t.get? ⟨"P", ["out", "gen", "x.c"]⟩,
      s ∈ t.foundAt path.route := by decide +kernel
  refine ⟨hcalls, r, haddress, ?_, fun path hpath => ?_⟩
  · rw [haddress]
    decide +kernel
  · have hmem := hpaths path hpath r hr
    exact ⟨hmem, (((hfound path.route).2 r).1 hmem).2⟩

end Tree

end BuildMarkers
