import BuildMarkers.Proofs.Disk.Standing
import BuildMarkers.Proofs.Resolution.Rules
import BuildMarkers.Resolution.Marker
import Mathlib.Data.List.Permutation
/-!
# What outcomes and markers promise

A reference means one file, none, or several; several only if it stands for no
absolute path, and then they are all the files of the project that it matches,
once each and in the order of a walk (`Outcome.Holds`). The marker for a
diagnostic says the same: it stands at the file that is meant, or at the project
with the reference in front of the description, and its candidates are the files
that may be meant (`Marker.Tells`). Both hold in every tree that calls build
(`Marker.generate_holds`).
-/

namespace BuildMarkers

variable {d : Disk} {t : Tree} {resolver : Resolver} {rule : CaseRule} {site : Site}
  {ref : Reference} {segments wanted : List String} {outcome : Outcome}
  {diagnostic : Diagnostic} {files : List Address}

/-- The names at the end of the segments are the wanted ones. -/
def CaseRule.Ends (rule : CaseRule) (segments wanted : List String) : Prop :=
  ∃ front back, segments = front ++ back ∧
    List.Forall₂ (fun a b => rule.same a b = true) back wanted

theorem CaseRule.endsWith_iff :
    rule.endsWith segments wanted = true ↔ rule.Ends segments wanted := by
  rw [endsWith, Bool.and_eq_true, decide_eq_true_iff, List.all_eq_true]
  constructor
  · rintro ⟨hlength, hsame⟩
    refine ⟨segments.take (segments.length - wanted.length),
      segments.drop (segments.length - wanted.length),
      (List.take_append_drop _ _).symm, List.forall₂_iff_zip.2 ⟨?_, fun hmem => hsame _ hmem⟩⟩
    rw [List.length_drop]
    omega
  · rintro ⟨front, back, rfl, hsame⟩
    have hlength := hsame.length_eq
    have hdrop : (front ++ back).drop ((front ++ back).length - wanted.length) = back := by
      rw [List.length_append, hlength, Nat.add_sub_cancel, List.drop_left]
    rw [hdrop]
    refine ⟨by simp [hlength], fun p hp => ?_⟩
    exact (List.forall₂_iff_zip.1 hsame).2 hp

/-- What an outcome promises. -/
def Outcome.Holds (t : Tree) (resolver : Resolver) (site : Site) (ref : Reference) : Outcome → Prop
  | .unique a => ∃ f, t.get? a = some f ∧ f.kind = .file
  | .noMatch => True
  | .ambiguous files =>
    resolver.hostPath? ref = none ∧ 2 ≤ files.length ∧ files.Nodup ∧
      (∀ a, a ∈ files ↔ a.project = site.project ∧ (∃ f, t.get? a = some f ∧ f.kind = .file) ∧
        resolver.caseRule.Ends a.segments ref.trailingSegments) ∧
      files.Pairwise fun a b => a.segments < b.segments

/-- What a marker tells of the outcome. -/
structure Marker.Tells (m : Marker) (site : Site) (diagnostic : Diagnostic)
    (outcome : Outcome) : Prop where
  /-- It stands at a file exactly if that one is meant. -/
  target_eq_file_iff : ∀ path, m.target = .file path ↔ ∃ a, outcome = .unique a ∧ a.fullPath = path
  /-- Then the description is that of the diagnostic. -/
  description_of_unique : ∀ a, outcome = .unique a → m.description = diagnostic.description
  /-- Otherwise it stands at the project and keeps the reference. -/
  of_not_unique : (∀ a, outcome ≠ .unique a) → m.target = .project site.project ∧
    m.description = (Reference.ofString diagnostic.reference).text ++ " " ++ diagnostic.description
  /-- There are candidates exactly if several files may be meant. -/
  candidates_ne_nil_iff : m.candidates ≠ [] ↔ ∃ files, outcome = .ambiguous files
  candidates_of_ambiguous : ∀ files, outcome = .ambiguous files →
    m.candidates = files.map Address.fullPath
  nodup_candidates : m.candidates.Nodup

namespace Resolver

/-- The files that a search compares are those of the project, and it keeps those whose last
names are the wanted ones. -/
theorem mem_filter_endsWith (ht : t.IsBuilt) (rule : CaseRule) (site : Site) (ref : Reference)
    {a : Address} :
    a ∈ (t.files site.project).filter (fun a => rule.endsWith a.segments ref.trailingSegments) ↔
      a.project = site.project ∧ (∃ f, t.get? a = some f ∧ f.kind = .file) ∧
        rule.Ends a.segments ref.trailingSegments := by
  simp only [List.mem_filter, ht.mem_files, Tree.isFile_iff, Resource.isFile_iff,
    CaseRule.endsWith_iff, and_assoc]

/-- **A search promises** what it finds. -/
theorem holds_of_search (ht : t.IsBuilt) (hhost : resolver.hostPath? ref = none) :
    (search resolver.caseRule t site ref).Holds t resolver site ref := by
  have hmem {a : Address} := mem_filter_endsWith ht resolver.caseRule site ref (a := a)
  have hsorted := (ht.pairwise_files site.project).filter
    fun a => resolver.caseRule.endsWith a.segments ref.trailingSegments
  rcases search_cases resolver.caseRule t site ref with h | ⟨a, ha, h⟩ | ⟨hlength, h⟩
  · rw [h]
    trivial
  · rw [h]
    exact (hmem.1 ha).2.1
  · rw [h]
    exact ⟨hhost, hlength, (ht.nodup_files _).filter _, fun a => hmem, hsorted⟩

/-- **Whatever rule decides, the outcome promises what it says.** -/
theorem holds_of_resolve (ht : t.IsBuilt) (d : Disk) :
    (resolver.resolve t d site ref).Holds t resolver site ref := by
  have unique {a : Address} (ha : t.isFile a = true) :
      (Outcome.unique a).Holds t resolver site ref := by
    obtain ⟨f, hf, hfile⟩ := Tree.isFile_iff.1 ha
    exact ⟨f, hf, Resource.isFile_iff.1 hfile⟩
  rw [resolve_eq]
  split_ifs with hempty
  · trivial
  cases hhost : resolver.hostPath? ref with
  | some path =>
    simp only
    cases h : t.fileAtLocation d site.project path.route with
    | some a =>
      rw [resolveAbsolute, h]
      exact unique (ht.isGrown.isFile_of_fileAtLocation h)
    | none =>
      rw [resolveAbsolute, h]
      trivial
  | none =>
    simp only [resolveOpaque]
    cases h : resolver.resolveRelative t d site ref with
    | some a => exact unique (isFile_of_resolveRelative ht.isGrown h)
    | none => exact holds_of_search ht hhost

theorem walk?_singleton {segment : String} {start : Address} (hdot : segment ≠ ".")
    (hup : segment ≠ "..") :
    walk? rule t start [segment] = child? rule t start segment := by
  simp only [walk?, List.foldlM_cons, List.foldlM_nil, step, if_neg hdot, if_neg hup]
  cases child? rule t start segment <;> rfl

end Resolver

namespace Marker

/-- **A marker tells what its outcome promises.** -/
theorem tells_ofOutcome (ht : t.IsBuilt) (h : outcome.Holds t resolver site ref) :
    (ofOutcome site diagnostic outcome).Tells site diagnostic outcome := by
  cases outcome with
  | unique a => constructor <;> simp [ofOutcome, ofOutcome.marker]
  | noMatch => constructor <;> simp [ofOutcome, ofOutcome.marker, ofOutcome.opaqueText]
  | ambiguous files =>
    obtain ⟨-, hlength, hnodup, hmem, -⟩ := h
    have hne : files ≠ [] := by
      rintro rfl
      simp at hlength
    have hinjective : ∀ a ∈ files, ∀ b ∈ files, a.fullPath = b.fullPath → a = b := by
      intro a ha b hb
      obtain ⟨hproject, ⟨f, hf, -⟩, -⟩ := (hmem a).1 ha
      obtain ⟨hproject', ⟨f', hf', -⟩, -⟩ := (hmem b).1 hb
      have hsegments := ht.isSegment_of_isSome (Option.isSome_of_eq_some hf)
      have hsegments' := ht.isSegment_of_isSome (Option.isSome_of_eq_some hf')
      exact Address.eq_of_fullPath_of_project (fun s hs => (hsegments s hs).slash_notMem)
        (fun s hs => (hsegments' s hs).slash_notMem) (hproject.trans hproject'.symm)
    have hcandidates : (files.map Address.fullPath).Nodup := hnodup.map_on hinjective
    constructor <;> simp [ofOutcome, ofOutcome.marker, ofOutcome.opaqueText, hne, hcandidates]

/-- **Outcomes and markers hold what they promise** in every tree that calls
build. -/
theorem generate_holds {calls : List Call} (hcalls : ∀ c ∈ calls, c.IsSpelled) (resolver : Resolver)
    (d : Disk) (site : Site) :
    let t := Tree.empty.applyAll calls
    (∀ ref, (resolver.resolve t d site ref).Holds t resolver site ref) ∧
    ∀ diagnostic, ∃ m outcome, generate resolver t d site diagnostic = (m, outcome) ∧
      outcome = resolver.resolve t d site (.ofString diagnostic.reference) ∧
      m.Tells site diagnostic outcome := by
  intro t
  have ht : t.IsBuilt := Tree.isBuilt_applyAll hcalls
  refine ⟨fun ref => Resolver.holds_of_resolve ht d, fun diagnostic => ⟨_, _, rfl, rfl, ?_⟩⟩
  exact tells_ofOutcome ht (Resolver.holds_of_resolve ht d)

/-- Two files of one name, in two folders of one project. -/
def twinCalls : List Call := [
  .project "P" (.ofString "/ws"),
  .resource "P" ["b", "x.c"] .file .none,
  .resource "P" ["a", "x.c"] .file .none]

/-- A diagnostic that gives that name. -/
def twinDiagnostic : Diagnostic := ⟨"x.c", 3, none, .error, "text"⟩

/-- A resolver without Cygwin that tells letter case apart. -/
def plainResolver : Resolver := ⟨.sensitive, ⟨none, []⟩⟩

/-- The location of the project. -/
def twinSite : Site := ⟨"P", .ofNames [.ofString "ws"]⟩

/-- Either of the files may be meant by their name. -/
theorem generate_holds_twins :
    ∃ m outcome, generate plainResolver (Tree.empty.applyAll twinCalls) .bare twinSite
        twinDiagnostic = (m, outcome) ∧
      outcome = .ambiguous [⟨"P", ["a", "x.c"]⟩, ⟨"P", ["b", "x.c"]⟩] ∧
      outcome.Holds (Tree.empty.applyAll twinCalls) plainResolver twinSite
        (.ofString twinDiagnostic.reference) ∧
      m.Tells twinSite twinDiagnostic outcome := by
  have hspelled : ∀ c ∈ twinCalls, c.IsSpelled := by decide
  have hhost : plainResolver.hostPath? (.ofString twinDiagnostic.reference) = none := by decide
  have hrelative : plainResolver.resolveRelative (Tree.empty.applyAll twinCalls) .bare
      twinSite (.ofString twinDiagnostic.reference) = none := by
    have hstart : (Tree.empty.applyAll twinCalls).containerAtLocation .bare twinSite.project
        twinSite.directory = some (.ofProject "P") := by decide
    have hsegments : (Reference.ofString twinDiagnostic.reference).segments = ["x.c"] := by decide
    have hchildren : (Tree.empty.applyAll twinCalls).children (.ofProject "P") = ["a", "b"] := by
      cbv
    have hwalk : Resolver.walk? plainResolver.caseRule (Tree.empty.applyAll twinCalls)
        (.ofProject "P") ["x.c"] = none := by
      rw [Resolver.walk?_singleton (by decide) (by decide), Resolver.child?, hchildren]
      decide
    have hfile : (Tree.empty.applyAll twinCalls).fileAtLocation .bare twinSite.project
        (twinSite.directory.normalize ++ (Reference.ofString twinDiagnostic.reference).steps) =
          none := by decide
    rw [Resolver.resolveRelative, hstart, hsegments, hfile]
    simp only [Option.bind_eq_bind, Option.bind_some, hwalk]
    rfl
  have hfiles : (Tree.empty.applyAll twinCalls).files twinSite.project =
      [⟨"P", ["a", "x.c"]⟩, ⟨"P", ["b", "x.c"]⟩] := by cbv
  have hresolve : plainResolver.resolve (Tree.empty.applyAll twinCalls) .bare twinSite
      (.ofString twinDiagnostic.reference) =
        .ambiguous [⟨"P", ["a", "x.c"]⟩, ⟨"P", ["b", "x.c"]⟩] := by
    rw [Resolver.resolve_eq, hhost]
    simp only [Resolver.resolveOpaque, hrelative, Resolver.search, hfiles]
    decide
  obtain ⟨hholds, htells⟩ := generate_holds hspelled plainResolver .bare twinSite
  obtain ⟨m, outcome, hgenerate, houtcome, htells⟩ := htells twinDiagnostic
  refine ⟨m, outcome, hgenerate, houtcome.trans hresolve, ?_, htells⟩
  rw [houtcome]
  exact hholds _

end Marker

end BuildMarkers
