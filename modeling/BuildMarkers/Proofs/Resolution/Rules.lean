import BuildMarkers.Proofs.Workspace.Selection
import BuildMarkers.Resolution.Resolver
import Mathlib.Algebra.Order.Ring.Nat
/-!
# The rules one by one

A reference that stands for a path of the host is looked up by location and by
nothing else, every other one is walked, looked up and searched in this order
(`resolve_eq`). What each rule may find is said once here: a lookup by location
and a walk find files, a search finds files that match, and whatever is preferred
among several of them is one of them.
-/

namespace BuildMarkers

variable {d : Disk} {t : Tree} {a : Address} {key route : Route} {preferred : String}
  {resolver : Resolver} {rule : CaseRule} {site : Site} {ref : Reference}
  {found files : List Address}

namespace Tree

/-! ## Lookups by location -/

/-- A lookup by location finds what some spelling finds. -/
theorem exists_of_atLocation {find : Route → Option Address}
    (h : atLocation d find route = some a) :
    ∃ key ∈ d.spellings route, find key = some a := by
  unfold atLocation at h
  cases hlexical : find route.normalize with
  | some b =>
    rw [hlexical] at h
    refine ⟨route.normalize, ?_, hlexical.trans h⟩
    simp [Disk.spellings, List.eraseDups_cons]
  | none =>
    rw [hlexical] at h
    obtain ⟨key, hkey, hfind⟩ := List.exists_of_findSome?_eq_some h
    exact ⟨key, List.mem_of_mem_drop hkey, hfind⟩

/-- A lookup by location does not look any further where something suitable has the
normalized spelling. -/
theorem atLocation_of_foundAt {r : Resource} {suits : Resource → Bool}
    (hr : r ∈ t.foundAt route.normalize) (hsuits : suits r = true) (d : Disk) (preferred : String) :
    ∃ f ∈ t.foundAt route.normalize, suits f = true ∧
      atLocation d (fun key => (t.select suits preferred key).map (·.address)) route =
        some f.address := by
  obtain ⟨hmem, hspelling⟩ := List.mem_filter.1 hr
  have hsome : (t.select suits preferred route.normalize).isSome :=
    select_isSome hmem hsuits (List.contains_iff_mem.1 hspelling)
  obtain ⟨f, hf⟩ := Option.isSome_iff_exists.1 hsome
  obtain ⟨hfmem, hfsuits, hfspelling⟩ := of_select hf
  refine ⟨f, List.mem_filter.2 ⟨hfmem, List.contains_iff_mem.2 hfspelling⟩, hfsuits, ?_⟩
  rw [atLocation, hf]
  rfl

/-- **A lookup for a file finds a file**, under whatever spelling. -/
theorem IsGrown.isFile_of_fileAtLocation (ht : t.IsGrown)
    (h : t.fileAtLocation d preferred route = some a) : t.isFile a = true := by
  obtain ⟨key, -, hfind⟩ := exists_of_atLocation h
  obtain ⟨r, hr, rfl⟩ := Option.map_eq_some_iff.1 hfind
  obtain ⟨hmem, hfile, -⟩ := of_select hr
  exact isFile_iff.2 ⟨r, ht.unique r hmem, hfile⟩

end Tree

namespace Resolver

/-- The path of the host that the reference stands for, if it is an absolute
one. -/
def hostPath? (resolver : Resolver) (ref : Reference) : Option Path :=
  if resolver.cygwin.recognizes ref.text then
    (resolver.cygwin.translate? ref.text).filter Path.isAbsolute
  else if ref.path.isAbsolute then some ref.path else none

/-- **What decides**: the location of the path that the reference stands for, if
there is such a path, and otherwise the other rules. -/
theorem resolve_eq : resolver.resolve t d site ref =
    if ref.text.isEmpty then .noMatch
    else match resolver.hostPath? ref with
      | some path => resolveAbsolute t d site path.route
      | none => resolver.resolveOpaque t d site ref := by
  unfold resolve hostPath?
  congr 1
  split_ifs with hcygwin habs
  · cases resolver.cygwin.translate? ref.text with
    | none => rfl
    | some path => cases hpath : path.isAbsolute <;> simp [hpath, Option.filter_some]
  · rfl
  · rfl

/-- A path of the host is looked up by location and by nothing else. -/
theorem resolve_eq_resolveAbsolute {text : String}
    (htrim : Text.trim text = text) (habs : (Path.ofString text).isAbsolute = true)
    (hcygwin : resolver.cygwin.recognizes text = false) :
    resolver.resolve t d site (.ofString text) =
      resolveAbsolute t d site (Path.ofString text).route := by
  have hnonempty : text.isEmpty = false := by
    rw [Bool.eq_false_iff]
    intro hempty
    rw [String.isEmpty_iff] at hempty
    subst hempty
    cases habs
  simp [resolve, Reference.ofString, Reference.path, htrim, hnonempty, hcygwin, habs]

/-- **A relative path leads to files**, along the tree as by location. -/
theorem isFile_of_resolveRelative (ht : t.IsGrown)
    (h : resolver.resolveRelative t d site ref = some a) :
    t.isFile a = true := by
  rcases (Option.orElse_eq_some _ _ _).1 h with hwalked | ⟨-, hlocation⟩
  · simp only [Option.bind_eq_bind, Option.bind_eq_some_iff,
      Option.ite_none_right_eq_some] at hwalked
    obtain ⟨start, -, b, -, hfile, hb⟩ := hwalked
    exact Option.some.inj hb ▸ hfile
  · exact ht.isFile_of_fileAtLocation hlocation

/-- **The rules for references that are no absolute path see their segments only**, and of the
resolver only how names are compared. -/
theorem resolveOpaque_congr {other : Resolver} {ref' : Reference}
    (hcase : resolver.caseRule = other.caseRule) (h : ref.segments = ref'.segments) :
    resolver.resolveOpaque t d site ref = other.resolveOpaque t d site ref' := by
  have hsteps : ref.steps = ref'.steps := by rw [Reference.steps, h, Reference.steps]
  have hbare : ref.isBare = ref'.isBare := by rw [Reference.isBare, h, Reference.isBare]
  have htrailing : ref.trailingSegments = ref'.trailingSegments := by
    rw [Reference.trailingSegments, h, Reference.trailingSegments]
  have hrelative : resolver.resolveRelative t d site ref = other.resolveRelative t d site ref' := by
    simp only [resolveRelative, hcase, h, hsteps]
  have hsearch : search resolver.caseRule t site ref = search other.caseRule t site ref' := by
    simp only [search, prefer, hcase, hbare, htrailing]
  simp only [resolveOpaque, hrelative, hsearch]

/-! ## Searching -/

theorem single?_eq_some_iff {α : Type} {l : List α} {x : α} : single? l = some x ↔ l = [x] := by
  unfold single?
  split <;> simp_all

/-- What is preferred is one of those that match, and if none is, they are left as
they are. -/
theorem prefer_cases (rule : CaseRule) (site : Site) (ref : Reference) (found : List Address) :
    (∃ a ∈ found, prefer rule site ref found = .unique a) ∨
      prefer rule site ref found = .ambiguous found := by
  have single_mem {p : Address → Bool} {a : Address}
      (h : single? (found.filter p) = some a) : a ∈ found :=
    List.mem_of_mem_filter (single?_eq_some_iff.1 h ▸ List.mem_singleton_self a)
  unfold prefer
  extract_lets exact inRoot
  cases h : exact <|> inRoot with
  | none => exact .inr rfl
  | some a =>
    refine .inl ⟨a, ?_, rfl⟩
    rcases (Option.orElse_eq_some _ _ _).1 h with hexact | ⟨-, hroot⟩
    · rw [Option.ite_none_right_eq_some] at hexact
      exact single_mem hexact.2
    · rw [Option.ite_none_right_eq_some] at hroot
      exact single_mem hroot.2

/-- **What a search finds** are the files that match: none, one of them, or all of
at least two. -/
theorem search_cases (rule : CaseRule) (t : Tree) (site : Site) (ref : Reference) :
    let found := (t.files site.project).filter fun a =>
        rule.endsWith a.segments ref.trailingSegments
    search rule t site ref = .noMatch ∨ (∃ a ∈ found, search rule t site ref = .unique a) ∨
      2 ≤ found.length ∧ search rule t site ref = .ambiguous found := by
  intro found
  unfold search
  extract_lets wanted
  split_ifs with hwanted
  · exact .inl rfl
  split
  · exact .inl rfl
  · next a hfound =>
    have hfound : found = [a] := hfound
    exact .inr (.inl ⟨a, hfound ▸ List.mem_singleton_self a, rfl⟩)
  · next hnil hone =>
    have hlength : 2 ≤ found.length := by
      rcases h : found with - | ⟨a, - | ⟨b, more⟩⟩
      · exact absurd h hnil
      · exact absurd h (hone a)
      · simp
    rcases prefer_cases rule site ref found with hunique | hambiguous
    · exact .inr (.inl hunique)
    · exact .inr (.inr ⟨hlength, hambiguous⟩)

end Resolver

end BuildMarkers
