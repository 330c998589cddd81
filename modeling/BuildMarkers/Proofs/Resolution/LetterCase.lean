import BuildMarkers.Proofs.Resolution.Searched
/-!
# Searching without regard to letter case

A search that disregards letter case finds the files that match to the letter and more.
If only one matches to the letter, it is still what the reference means, and what
matches in no case does not match to the letter either. A file that is preferred for
lying directly in the project is still preferred if it is the only one there that
matches, whatever the case; a rival there (`Resolver.Rivalled`) leaves the name open
between all files that match (`Resolver.search_insensitive`).
-/

namespace BuildMarkers

variable {t : Tree} {a b : Address} {rule : CaseRule} {site : Site} {ref : Reference}
  {segments wanted : List String} {files : List Address}

namespace Resolver

/-- The files of the project whose last segments are, up to letter case, those that the
reference wants. -/
def matchingAnyCase (t : Tree) (site : Site) (ref : Reference) : Set Address :=
  {a | a.project = site.project ∧ (∃ f, t.get? a = some f ∧ f.kind = .file) ∧
    ∃ front back, a.segments = front ++ back ∧
      back.map Text.lower = ref.trailingSegments.map Text.lower}

/-- The file is not the only one that matches to the letter, nor the only one directly in the
project that matches up to letter case. -/
structure Rivalled (t : Tree) (site : Site) (ref : Reference) (a : Address) : Prop where
  exact : ∃ b ∈ matching t site ref, b ≠ a
  inRoot : ∃ b ∈ inRoot site (matchingAnyCase t site ref), b ≠ a

/-- The files among which the search decides, in the order of the listing. -/
def candidates (rule : CaseRule) (t : Tree) (site : Site) (ref : Reference) : List Address :=
  (t.files site.project).filter fun a => rule.endsWith a.segments ref.trailingSegments

theorem nodup_candidates (ht : t.IsBuilt) : (candidates rule t site ref).Nodup :=
  (ht.nodup_files _).filter _

theorem ends_insensitive_iff : CaseRule.insensitive.Ends segments wanted ↔
    ∃ front back, segments = front ++ back ∧ back.map Text.lower = wanted.map Text.lower := by
  have hsame : (fun a b => CaseRule.insensitive.same a b = true) =
      fun a b => Text.lower a = Text.lower b := by
    funext a b
    simp only [CaseRule.same, Bool.or_eq_true, beq_iff_eq, eq_iff_iff, or_iff_right_iff_imp]
    exact congrArg Text.lower
  have hmap {back : List String} :
      List.Forall₂ (fun a b => Text.lower a = Text.lower b) back wanted ↔
      back.map Text.lower = wanted.map Text.lower := by
    rw [← List.forall₂_eq_eq_eq, List.forall₂_map_left_iff, List.forall₂_map_right_iff]
  simp only [CaseRule.Ends, hsame, hmap]

theorem mem_candidates_insensitive (ht : t.IsBuilt) :
    a ∈ candidates .insensitive t site ref ↔ a ∈ matchingAnyCase t site ref := by
  rw [candidates, mem_filter_endsWith ht .insensitive, ends_insensitive_iff]
  rfl

/-- **What matches to the letter matches in any case.** -/
theorem matching_subset : matching t site ref ⊆ matchingAnyCase t site ref := by
  rintro a ⟨hproject, hfile, front, hsegments⟩
  exact ⟨hproject, hfile, front, _, hsegments.symm, rfl⟩

theorem mem_matching_iff : b ∈ matching t site ref ↔
    b ∈ matchingAnyCase t site ref ∧ ref.trailingSegments <:+ b.segments := by
  constructor
  · exact fun hb => ⟨matching_subset hb, hb.2.2⟩
  · rintro ⟨⟨hproject, hfile, -⟩, hsegments⟩
    exact ⟨hproject, hfile, hsegments⟩

theorem setOf_exact_eq (ht : t.IsBuilt) : {b | b ∈ candidates .insensitive t site ref ∧
    ref.trailingSegments <:+ b.segments} = matching t site ref := by
  ext b
  rw [mem_matching_iff, ← mem_candidates_insensitive ht]
  rfl

/-! ## What is preferred -/

theorem mem_filter_exact :
    b ∈ files.filter (fun b => CaseRule.endsWith .sensitive b.segments ref.trailingSegments) ↔
      b ∈ files ∧ ref.trailingSegments <:+ b.segments := by
  rw [List.mem_filter, CaseRule.endsWith_iff, ends_sensitive_iff]

/-- The only file that matches to the letter is preferred. -/
theorem prefer_insensitive_of_exact (site : Site) (hnodup : files.Nodup)
    (hexact : {b | b ∈ files ∧ ref.trailingSegments <:+ b.segments} = {a}) :
    prefer .insensitive site ref files = .unique a := by
  have hsingle : single?
      (files.filter fun b =>
        CaseRule.endsWith .sensitive b.segments ref.trailingSegments) = some a := by
    rw [single?_eq_some_iff_of_nodup (hnodup.filter _), ← hexact]
    simp only [mem_filter_exact]
  simp [prefer, hsingle]

/-- Where several files match to the letter, letter case is no tie-break. -/
theorem prefer_insensitive_of_nontrivial (site : Site) (hnodup : files.Nodup)
    (hexact : {b | b ∈ files ∧ ref.trailingSegments <:+ b.segments}.Nontrivial) :
    prefer .insensitive site ref files = prefer .sensitive site ref files := by
  have hsingle : single?
      (files.filter fun b =>
        CaseRule.endsWith .sensitive b.segments ref.trailingSegments) = none := by
    refine Option.eq_none_iff_forall_ne_some.2 fun a ha => ?_
    rw [single?_eq_some_iff_of_nodup (hnodup.filter _)] at ha
    simp only [mem_filter_exact] at ha
    exact hexact.ne_singleton ha
  simp [prefer, hsingle]

/-! ## What is found -/

/-- A single candidate is found. -/
theorem search_of_candidates (hwanted : ref.trailingSegments ≠ [])
    (h : candidates rule t site ref = [a]) : search rule t site ref = .unique a := by
  rw [candidates] at h
  rw [search, if_neg (by simpa using hwanted), h]

/-- Among several candidates the search prefers one or none. -/
theorem search_eq_prefer (hwanted : ref.trailingSegments ≠ [])
    (hlength : 2 ≤ (candidates rule t site ref).length) :
    search rule t site ref = prefer rule site ref (candidates rule t site ref) := by
  rw [candidates] at hlength ⊢
  rw [search, if_neg (by simpa using hwanted)]
  split
  · simp_all
  · simp_all
  · rfl

/-- Nothing is found exactly if there is no candidate. -/
theorem search_eq_noMatch_iff : search rule t site ref = .noMatch ↔
    ref.trailingSegments = [] ∨ candidates rule t site ref = [] := by
  constructor
  · intro h
    by_contra hnone
    rw [not_or] at hnone
    obtain ⟨hwanted, hne⟩ := hnone
    rcases Nat.lt_or_ge (candidates rule t site ref).length 2 with hlength | hlength
    · have hpos := List.length_pos_iff.2 hne
      obtain ⟨a, ha⟩ :=
        List.length_eq_one_iff.1 (show (candidates rule t site ref).length = 1 by omega)
      rw [search_of_candidates hwanted ha] at h
      cases h
    · rw [search_eq_prefer hwanted hlength] at h
      rcases prefer_cases rule site ref
        (candidates rule t site ref) with ⟨a, -, hunique⟩ | hambiguous
      · rw [hunique] at h
        cases h
      · rw [hambiguous] at h
        cases h
  · rintro (hwanted | hnil)
    · simp [search, hwanted]
    · rw [candidates] at hnil
      simp [search, hnil]

/-- **The only file that matches to the letter is found** without regard to letter case. -/
theorem search_insensitive_of_exact (ht : t.IsBuilt) (hwanted : ref.trailingSegments ≠ [])
    (hexact : matching t site ref = {a}) : search .insensitive t site ref = .unique a := by
  have ha : a ∈ candidates .insensitive t site ref :=
    (mem_candidates_insensitive ht).2 (matching_subset (hexact ▸ Set.mem_singleton a))
  rcases Nat.lt_or_ge (candidates .insensitive t site ref).length 2 with hlength | hlength
  · have hpos := List.length_pos_of_mem ha
    obtain ⟨b, hb⟩ := List.length_eq_one_iff.1
      (show (candidates .insensitive t site ref).length = 1 by omega)
    obtain rfl : a = b := by simpa [hb] using ha
    exact search_of_candidates hwanted hb
  · rw [search_eq_prefer hwanted hlength]
    exact prefer_insensitive_of_exact site (nodup_candidates ht) ((setOf_exact_eq ht).trans hexact)

/-- Where several files match to the letter, the one directly in the project is preferred
among all that match in any case. -/
theorem search_insensitive_of_nontrivial (ht : t.IsBuilt) (hwanted : ref.trailingSegments ≠ [])
    (hseveral : (matching t site ref).Nontrivial) :
    (∃ a, search .insensitive t site ref = .unique a ∧
      Prefers site ref (matchingAnyCase t site ref) a) ∨
    (∃ files, search .insensitive t site ref = .ambiguous files ∧
        ∀ b, b ∈ files ↔ b ∈ matchingAnyCase t site ref) ∧
      ∀ a, ¬ Prefers site ref (matchingAnyCase t site ref) a := by
  have hset : {b | b ∈ candidates .insensitive t site ref} = matchingAnyCase t site ref :=
    Set.ext fun b => mem_candidates_insensitive ht
  have hlength : 2 ≤ (candidates .insensitive t site ref).length := by
    obtain ⟨a, ha, b, hb, hne⟩ := hset ▸ hseveral.mono matching_subset
    rw [Set.mem_ofPred_eq] at ha hb
    generalize candidates .insensitive t site ref = found at ha hb ⊢
    rcases found with _ | ⟨c, _ | ⟨d, more⟩⟩
    · cases ha
    · exact absurd ((List.mem_singleton.1 ha).trans (List.mem_singleton.1 hb).symm) hne
    · simp
  rw [search_eq_prefer hwanted hlength, ← hset,
    prefer_insensitive_of_nontrivial site (nodup_candidates ht)
      ((setOf_exact_eq ht).symm ▸ hseveral)]
  rcases prefer_sensitive_cases site ref (nodup_candidates ht) with hunique | ⟨hambiguous, hnone⟩
  · exact .inl hunique
  · exact .inr ⟨⟨_, hambiguous, fun _ => Iff.rfl⟩, hnone⟩

/-- **What a search without regard to letter case keeps** of one to the letter. The file that is
meant to the letter is still meant, unless it was preferred for lying directly in the
project and has a rival there; then the name is open between all files that match in any
case. And where nothing matches in any case, nothing does to the letter. -/
theorem search_insensitive {calls : List Call} (hcalls : ∀ call ∈ calls, call.IsSpelled)
    (site : Site) (ref : Reference) :
    let t := Tree.empty.applyAll calls
    (∀ a, search .sensitive t site ref = .unique a →
      (¬ Rivalled t site ref a → search .insensitive t site ref = .unique a) ∧
      (Rivalled t site ref a → ∃ files, search .insensitive t site ref = .ambiguous files ∧
        ∀ b, b ∈ files ↔ b ∈ matchingAnyCase t site ref)) ∧
    (search .insensitive t site ref = .noMatch → search .sensitive t site ref = .noMatch) := by
  intro t
  have ht : t.IsBuilt := Tree.isBuilt_applyAll hcalls
  have hrule := searchRule_search ht site ref
  constructor
  · intro a ha
    rw [ha] at hrule
    cases hrule with
    | single hwanted hexact =>
      refine ⟨fun _ => search_insensitive_of_exact ht hwanted hexact, fun hrivalled => ?_⟩
      obtain ⟨b, hb, hne⟩ := hrivalled.exact
      exact absurd (hexact ▸ hb : b ∈ ({a} : Set Address)) hne
    | preferred hwanted hseveral hprefers =>
      have hroot : a ∈ inRoot site (matchingAnyCase t site ref) := by
        obtain ⟨ha, hparent⟩ : a ∈ inRoot site (matching t site ref) :=
          hprefers.2 ▸ Set.mem_singleton a
        exact ⟨matching_subset ha, hparent⟩
      rcases search_insensitive_of_nontrivial ht hwanted hseveral with
        ⟨c, hunique, hc⟩ | ⟨hambiguous, hnone⟩
      · have hca : c = a := (hc.2 ▸ hroot : a ∈ ({c} : Set Address)).symm
        subst hca
        refine ⟨fun _ => hunique, fun hrivalled => ?_⟩
        obtain ⟨b, hb, hne⟩ := hrivalled.inRoot
        exact absurd (hc.2 ▸ hb : b ∈ ({c} : Set Address)) hne
      · refine ⟨fun hrivalled => ?_, fun _ => hambiguous⟩
        -- the file would be the only one in the project itself, and so be preferred
        have honly : inRoot site (matchingAnyCase t site ref) = {a} := by
          refine Set.eq_singleton_iff_unique_mem.2 ⟨hroot, fun b hb => ?_⟩
          by_contra hne
          exact hrivalled ⟨hseveral.exists_ne a, b, hb, hne⟩
        exact absurd ⟨hprefers.1, honly⟩ (hnone a)
  · intro hnone
    rcases search_eq_noMatch_iff.1 hnone with hwanted | hnil
    · exact search_eq_noMatch_iff.2 (.inl hwanted)
    · have hempty : matching t site ref = ∅ := by
        refine Set.eq_empty_iff_forall_notMem.2 fun b hb => ?_
        have hmem := (mem_candidates_insensitive ht).2 (matching_subset hb)
        simp [hnil] at hmem
      exact hrule.eq (.noMatch (.inr hempty))

/-- Two files of one name to the letter, and one in another case in a folder. -/
def mixedCalls : List Call := namesakeCalls ++ [.resource "P" ["dir", "X.C"] .file .none]

/-- The same, the one in another case directly in the project. -/
def rivalCalls : List Call := namesakeCalls ++ [.resource "P" ["X.c"] .file .none]

theorem files_rivalCalls : (Tree.empty.applyAll rivalCalls).files outside.project =
    [⟨"P", ["X.c"]⟩, ⟨"P", ["sub", "x.c"]⟩, ⟨"P", ["x.c"]⟩] := by cbv

/-- A rival directly in the project takes the unique file away. -/
theorem search_insensitive_rival :
    (∀ call ∈ rivalCalls, call.IsSpelled) ∧
      search .sensitive (Tree.empty.applyAll rivalCalls) outside bareName = .unique ⟨"P", ["x.c"]⟩ ∧
      search .insensitive (Tree.empty.applyAll rivalCalls) outside bareName =
        .ambiguous [⟨"P", ["X.c"]⟩, ⟨"P", ["sub", "x.c"]⟩, ⟨"P", ["x.c"]⟩] := by
  have hmatching : List.filter (fun a =>
      CaseRule.insensitive.endsWith a.segments bareName.trailingSegments)
      [(⟨"P", ["X.c"]⟩ : Address), ⟨"P", ["sub", "x.c"]⟩, ⟨"P", ["x.c"]⟩] =
        [⟨"P", ["X.c"]⟩, ⟨"P", ["sub", "x.c"]⟩, ⟨"P", ["x.c"]⟩] := by decide
  refine ⟨by decide, ?_, ?_⟩
  · simp only [search, files_rivalCalls]
    decide
  · simp only [search, files_rivalCalls, hmatching]
    decide

/-- The file directly in the project is still meant where the one in another case lies in a
folder, but not where that one lies beside it. -/
theorem search_insensitive_mixed :
    search .insensitive (Tree.empty.applyAll mixedCalls) outside bareName = .unique ⟨"P", ["x.c"]⟩ ∧
      ∃ files, search .insensitive (Tree.empty.applyAll rivalCalls) outside bareName =
        .ambiguous files ∧
        ∀ b, b ∈ files ↔ b ∈ matchingAnyCase (Tree.empty.applyAll rivalCalls) outside bareName := by
  have hmixed : ∀ call ∈ mixedCalls, call.IsSpelled := by decide
  have hrival : ∀ call ∈ rivalCalls, call.IsSpelled := by decide
  have hmixedFiles : (Tree.empty.applyAll mixedCalls).files outside.project =
      [⟨"P", ["dir", "X.C"]⟩, ⟨"P", ["sub", "x.c"]⟩, ⟨"P", ["x.c"]⟩] := by cbv
  refine ⟨((search_insensitive hmixed outside bareName).1 ⟨"P", ["x.c"]⟩ ?_).1 ?_,
    ((search_insensitive hrival outside bareName).1 ⟨"P", ["x.c"]⟩ ?_).2 ⟨?_, ?_⟩⟩
  · simp only [search, hmixedFiles]
    decide
  · rintro ⟨-, b, ⟨hb, hparent⟩, hne⟩
    rw [← mem_candidates_insensitive (Tree.isBuilt_applyAll hmixed), candidates, hmixedFiles] at hb
    have hroot : ∀ b ∈ [(⟨"P", ["dir", "X.C"]⟩ : Address), ⟨"P", ["sub", "x.c"]⟩,
        ⟨"P", ["x.c"]⟩], b.parent? = some (.ofProject "P") → b = ⟨"P", ["x.c"]⟩ := by decide
    exact hne (hroot b (List.mem_of_mem_filter hb) hparent)
  · simp only [search, files_rivalCalls]
    decide
  · refine ⟨⟨"P", ["sub", "x.c"]⟩, ?_, by decide⟩
    refine (mem_filter_endsWith_iff (Tree.isBuilt_applyAll hrival)).1 ?_
    rw [files_rivalCalls]
    decide
  · refine ⟨⟨"P", ["X.c"]⟩, ⟨?_, by decide⟩, by decide⟩
    refine (mem_candidates_insensitive (Tree.isBuilt_applyAll hrival)).1 ?_
    have hends : CaseRule.insensitive.endsWith ["X.c"] bareName.trailingSegments = true := by decide
    rw [candidates, files_rivalCalls, List.mem_filter]
    exact ⟨by decide, hends⟩

end Resolver

end BuildMarkers
