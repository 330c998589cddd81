import BuildMarkers.Proofs.Resolution.Outcome
import Mathlib.Data.List.Sort
/-!
# Searching by name

Where neither a location nor a walk decides, the outcome depends on one set only:
the files of the project whose path ends with the segments that the reference wants
(`Resolver.matching`). There is no such file, or one, or there are several, of which
a bare name prefers the one that lies directly in the project (`SearchRule`), and
nothing else in the tree has a say (`Resolver.resolve_eq_iff_searchRule`).
-/

namespace BuildMarkers

variable {d : Disk} {t u : Tree} {a : Address} {resolver : Resolver} {site : Site} {ref : Reference}
  {segments wanted : List String} {outcome other : Outcome} {found : Set Address}
  {files : List Address}

namespace Resolver

/-- The files of the project whose last segments are those that the reference wants. -/
def matching (t : Tree) (site : Site) (ref : Reference) : Set Address :=
  {a | a.project = site.project ∧ (∃ f, t.get? a = some f ∧ f.kind = .file) ∧
    ref.trailingSegments <:+ a.segments}

/-- Those of them that lie directly in the project. -/
def inRoot (site : Site) (found : Set Address) : Set Address :=
  {a ∈ found | a.parent? = some (.ofProject site.project)}

/-- A name without directories leads to the file, if no other one that matches lies
directly in the project. -/
def Prefers (site : Site) (ref : Reference) (found : Set Address) (a : Address) : Prop :=
  ref.segments.length = 1 ∧ inRoot site found = {a}

/-- What a search says, `found` being the files that match. -/
inductive SearchRule (site : Site) (ref : Reference) (found : Set Address) : Outcome → Prop
  /-- The reference has no segment to search for, or no file matches. -/
  | noMatch : ref.trailingSegments = [] ∨ found = ∅ → SearchRule site ref found .noMatch
  /-- One file matches. -/
  | single {a : Address} : ref.trailingSegments ≠ [] → found = {a} →
      SearchRule site ref found (.unique a)
  /-- Several files match, and one of them is preferred. -/
  | preferred {a : Address} : ref.trailingSegments ≠ [] → found.Nontrivial →
      Prefers site ref found a →
      SearchRule site ref found (.unique a)
  /-- Several files match, and each of them may be meant. -/
  | several {files : List Address} : ref.trailingSegments ≠ [] → found.Nontrivial →
      (∀ a, ¬ Prefers site ref found a) → (∀ a, a ∈ files ↔ a ∈ found) →
      (files.Pairwise fun a b => a.segments < b.segments) →
        SearchRule site ref found (.ambiguous files)

theorem Prefers.eq {b : Address} (h : Prefers site ref found a)
    (h' : Prefers site ref found b) : a = b :=
  Set.singleton_injective (h.2.symm.trans h'.2)

/-- **The rule leaves no choice**: it gives one outcome for each set of files. -/
theorem SearchRule.eq (h : SearchRule site ref found outcome)
    (h' : SearchRule site ref found other) :
    outcome = other := by
  cases h with
  | noMatch h =>
    cases h' with
    | noMatch _ => rfl
    | single hwanted hone => simp [hwanted, hone] at h
    | preferred hwanted hseveral _ =>
      exact absurd (h.resolve_left hwanted) hseveral.nonempty.ne_empty
    | several hwanted hseveral _ _ _ =>
      exact absurd (h.resolve_left hwanted) hseveral.nonempty.ne_empty
  | single hwanted hone =>
    cases h' with
    | noMatch h => simp [hwanted, hone] at h
    | single _ hone' => rw [Set.singleton_injective (hone.symm.trans hone')]
    | preferred _ hseveral _ => exact absurd hone hseveral.ne_singleton
    | several _ hseveral _ _ _ => exact absurd hone hseveral.ne_singleton
  | preferred hwanted hseveral hprefers =>
    cases h' with
    | noMatch h => exact absurd (h.resolve_left hwanted) hseveral.nonempty.ne_empty
    | single _ hone => exact absurd hone hseveral.ne_singleton
    | preferred _ _ hprefers' => rw [hprefers.eq hprefers']
    | several _ _ hnone _ _ => exact absurd hprefers (hnone _)
  | several hwanted hseveral hnone hmem hsorted =>
    cases h' with
    | noMatch h => exact absurd (h.resolve_left hwanted) hseveral.nonempty.ne_empty
    | single _ hone => exact absurd hone hseveral.ne_singleton
    | preferred _ _ hprefers => exact absurd hprefers (hnone _)
    | several _ _ _ hmem' hsorted' =>
      rw [List.Pairwise.eq_of_mem_iff hsorted hsorted' fun a => (hmem a).trans (hmem' a).symm]

/-! ## The search of a case-sensitive resolver -/

theorem ends_sensitive_iff : CaseRule.sensitive.Ends segments wanted ↔ wanted <:+ segments := by
  have hsame : (fun a b => CaseRule.sensitive.same a b = true) = (Eq : String → String → Prop) := by
    funext a b
    simp [CaseRule.same]
  rw [CaseRule.Ends, hsame, List.forall₂_eq_eq_eq]
  constructor
  · rintro ⟨front, back, rfl, rfl⟩
    exact List.suffix_append front back
  · rintro ⟨front, rfl⟩
    exact ⟨front, wanted, rfl, rfl⟩

/-- The files that are compared are those that match. -/
theorem mem_filter_endsWith_iff (ht : t.IsBuilt) : a ∈ (t.files site.project).filter
    (fun a => CaseRule.sensitive.endsWith a.segments ref.trailingSegments) ↔
      a ∈ matching t site ref := by
  rw [mem_filter_endsWith ht .sensitive, ends_sensitive_iff]
  rfl

/-- In a list without repetitions, one member is the only one if the list has no
other. -/
theorem single?_eq_some_iff_of_nodup {α : Type} {l : List α} {x : α} (hl : l.Nodup) :
    single? l = some x ↔ {y | y ∈ l} = {x} := by
  rw [single?_eq_some_iff, Set.ext_iff]
  constructor
  · rintro rfl
    simp
  · intro h
    refine List.perm_singleton.1
      ((List.perm_ext_iff_of_nodup hl (List.nodup_singleton x)).2 fun y => ?_)
    rw [List.mem_singleton]
    exact h y

/-- Among several files a case-sensitive search takes the preferred one, if there is
one. -/
theorem prefer_sensitive_cases (site : Site) (ref : Reference) (hnodup : files.Nodup) :
    (∃ a, prefer .sensitive site ref files = .unique a ∧ Prefers site ref {b | b ∈ files} a) ∨
    prefer .sensitive site ref files = .ambiguous files ∧
      ∀ a, ¬ Prefers site ref {b | b ∈ files} a := by
  unfold prefer
  extract_lets exact inRoot
  have hprefers {a : Address} : inRoot = some a ↔ Prefers site ref {b | b ∈ files} a := by
    rw [Option.ite_none_right_eq_some, single?_eq_some_iff_of_nodup (hnodup.filter _)]
    simp only [Prefers, Resolver.inRoot, Reference.isBare, List.mem_filter, decide_eq_true_eq,
      Set.mem_ofPred_eq]
  -- letter case is no tie-break here, so the choice is the file in the project itself
  have hchoice : (exact <|> inRoot) = inRoot := rfl
  rw [hchoice]
  cases h : inRoot with
  | some a => exact .inl ⟨a, rfl, hprefers.1 h⟩
  | none => exact .inr ⟨rfl, fun a ha => absurd (h.symm.trans (hprefers.2 ha)) (by simp)⟩

/-- Files in the order of a walk are weighed by the rule. -/
theorem searchRule_of_sorted (hwanted : ref.trailingSegments ≠ []) (site : Site) :
    ∀ files : List Address, (files.Pairwise fun a b => a.segments < b.segments) →
      SearchRule site ref {a | a ∈ files} (match files with
        | [] => .noMatch
        | [a] => .unique a
        | found => prefer .sensitive site ref found)
  | [], _ => .noMatch (.inr (by simp))
  | [a], _ => .single hwanted (by simp)
  | a :: b :: more, hsorted => by
    have hnodup : (a :: b :: more).Nodup := by
      refine hsorted.imp ?_
      rintro c _ hlt rfl
      exact lt_irrefl _ hlt
    have hseveral : {c | c ∈ a :: b :: more}.Nontrivial :=
      ⟨a, by simp, b, by simp, fun heq => by simp [heq] at hnodup⟩
    rcases prefer_sensitive_cases site ref hnodup with ⟨c, hunique, hprefers⟩ | ⟨hambiguous, hnone⟩
    · simp only [hunique]
      exact .preferred hwanted hseveral hprefers
    · simp only [hambiguous]
      exact .several hwanted hseveral hnone (fun _ => Iff.rfl) hsorted

/-- **A search follows the rule.** -/
theorem searchRule_search (ht : t.IsBuilt) (site : Site) (ref : Reference) :
    SearchRule site ref (matching t site ref) (search .sensitive t site ref) := by
  have hsorted := (ht.pairwise_files site.project).filter
    fun a => CaseRule.sensitive.endsWith a.segments ref.trailingSegments
  have hmatching : matching t site ref = {a | a ∈ (t.files site.project).filter
      fun a => CaseRule.sensitive.endsWith a.segments ref.trailingSegments} :=
    Set.ext fun a => (mem_filter_endsWith_iff ht).symm
  rw [hmatching, search]
  split_ifs with hempty
  · exact .noMatch (.inl (List.isEmpty_iff.1 hempty))
  · exact searchRule_of_sorted (by simpa using hempty) site _ hsorted

/-- Where no other rule decides, the reference is searched. -/
theorem resolve_eq_search (hhost : resolver.hostPath? ref = none)
    (hrelative : resolver.resolveRelative t d site ref = none) :
    resolver.resolve t d site ref = search resolver.caseRule t site ref := by
  rw [resolve_eq, hhost]
  split_ifs with hempty
  · have htext : ref.text = "" := by simpa using hempty
    have hwanted : ref.trailingSegments = [] := by
      simp [Reference.trailingSegments, Reference.segments, Text.segments, htext]
    simp [search, hwanted]
  · simp only [resolveOpaque, hrelative]

/-- **The name search follows its rule.** Where the reference stands for no absolute path and
leads nowhere from the directory of the site, the outcome is the one that the rule gives
for the files of the project that match, and another tree with the same of these files has
the same outcome, whatever else is in it. -/
theorem resolve_eq_iff_searchRule {calls : List Call} (hcalls : ∀ call ∈ calls, call.IsSpelled)
    (cygwin : CygwinMap) (d : Disk) (site : Site) (ref : Reference)
    (hhost : hostPath? ⟨.sensitive, cygwin⟩ ref = none)
    (hrelative : resolveRelative ⟨.sensitive, cygwin⟩ (Tree.empty.applyAll calls) d
      site ref = none) :
    let resolver : Resolver := ⟨.sensitive, cygwin⟩
    let t := Tree.empty.applyAll calls
    (∀ outcome, resolver.resolve t d site ref = outcome ↔
      SearchRule site ref (matching t site ref) outcome) ∧
    ∀ others : List Call, (∀ call ∈ others, call.IsSpelled) →
      let u := Tree.empty.applyAll others
      resolver.resolveRelative u d site ref = none → matching u site ref = matching t site ref →
        resolver.resolve u d site ref = resolver.resolve t d site ref := by
  intro resolver t
  have hrule := searchRule_search (Tree.isBuilt_applyAll hcalls) site ref
  have hresolve : resolver.resolve t d site ref = search .sensitive t site ref :=
    resolve_eq_search hhost hrelative
  constructor
  · intro outcome
    rw [hresolve]
    exact ⟨fun h => h ▸ hrule, hrule.eq⟩
  · intro others hothers u hrelative' hmatching
    have hrule' := searchRule_search (Tree.isBuilt_applyAll hothers) site ref
    rw [hresolve, resolve_eq_search hhost hrelative']
    exact (hmatching ▸ hrule').eq hrule

/-- Two files of one name, one of them directly in the project. -/
def namesakeCalls : List Call := [
  .project "P" (.ofString "/ws"),
  .resource "P" ["sub", "x.c"] .file .none,
  .resource "P" ["x.c"] .file .none]

/-- Besides them a folder of that name, a file whose name only ends with it, and a file
of another project. -/
def strangerCalls : List Call := namesakeCalls ++ [
  .resource "P" ["dir", "x.c"] .folder .none,
  .resource "P" ["sub", "ax.c"] .file .none,
  .project "Q" (.ofString "/other"),
  .resource "Q" ["x.c"] .file .none]

/-- A directory outside of the workspace. -/
def outside : Site := ⟨"P", .ofNames [.ofString "out"]⟩

/-- The name alone. -/
def bareName : Reference := .ofString "x.c"

/-- The bare name means the file in the project itself, with the others in the tree as
without them. -/
theorem resolve_eq_iff_searchRule_namesakes :
    SearchRule outside bareName (matching (Tree.empty.applyAll namesakeCalls) outside bareName)
        (.unique ⟨"P", ["x.c"]⟩) ∧
      resolve ⟨.sensitive, ⟨none, []⟩⟩ (Tree.empty.applyAll strangerCalls) .bare outside bareName =
        .unique ⟨"P", ["x.c"]⟩ := by
  have hcalls : ∀ call ∈ namesakeCalls, call.IsSpelled := by decide
  have hothers : ∀ call ∈ strangerCalls, call.IsSpelled := by decide
  have hhost : hostPath? ⟨.sensitive, ⟨none, []⟩⟩ bareName = none := by decide
  have hrelative : resolveRelative ⟨.sensitive, ⟨none, []⟩⟩ (Tree.empty.applyAll namesakeCalls)
      .bare outside bareName = none := by decide
  have hrelative' : resolveRelative ⟨.sensitive, ⟨none, []⟩⟩ (Tree.empty.applyAll strangerCalls)
      .bare outside bareName = none := by decide
  have hfiles : ((Tree.empty.applyAll strangerCalls).files outside.project).filter
      (fun a => CaseRule.sensitive.endsWith a.segments bareName.trailingSegments) =
        ((Tree.empty.applyAll namesakeCalls).files outside.project).filter
          fun a => CaseRule.sensitive.endsWith a.segments bareName.trailingSegments := by cbv
  have hmatching : matching (Tree.empty.applyAll strangerCalls) outside bareName =
      matching (Tree.empty.applyAll namesakeCalls) outside bareName := by
    ext a
    rw [← mem_filter_endsWith_iff (Tree.isBuilt_applyAll hothers), hfiles,
      mem_filter_endsWith_iff (Tree.isBuilt_applyAll hcalls)]
  have hresolve : resolve ⟨.sensitive, ⟨none, []⟩⟩ (Tree.empty.applyAll namesakeCalls) .bare
      outside bareName = .unique ⟨"P", ["x.c"]⟩ := by
    have hproject : (Tree.empty.applyAll namesakeCalls).files outside.project =
        [⟨"P", ["sub", "x.c"]⟩, ⟨"P", ["x.c"]⟩] := by cbv
    rw [resolve_eq_search hhost hrelative]
    simp only [search, hproject]
    decide
  obtain ⟨hrule, hsame⟩ := resolve_eq_iff_searchRule hcalls ⟨none, []⟩ .bare outside bareName
    hhost hrelative
  exact ⟨(hrule _).1 hresolve, (hsame _ hothers hrelative' hmatching).trans hresolve⟩

end Resolver

end BuildMarkers
