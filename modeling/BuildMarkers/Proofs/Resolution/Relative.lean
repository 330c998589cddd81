import BuildMarkers.Proofs.Path.Plain
import BuildMarkers.Proofs.Reference.Cygwin
import BuildMarkers.Proofs.Resolution.Rules
import Mathlib.Algebra.Order.Sub.Basic
/-!
# Relative paths

A file has many relative spellings: up from the directory of the site to one of
the resources above it, or to above all projects, and down again along names
(`Address.Spells`). A walk along such a spelling ends at the file, because a name
that is there is taken as it stands before any other letter case is tried
(`walk?_of_spells`), and since a walk comes before any lookup or search, every
such spelling means the file (`resolve_relative`).
-/

namespace BuildMarkers

variable {d : Disk} {t : Tree} {a c f : Address} {rule : CaseRule}
  {resolver : Resolver} {site : Site}
  {text name project : String} {above names segments : List String} {k : ℕ}

namespace Address

/-- The segments lead from one address to the other: some steps up and then down
along names, or all the way up to above the projects and then down from there. -/
inductive Spells (c : Address) : List String → Address → Prop
  | within {k : ℕ} {names : List String} : k ≤ c.segments.length → ".." ∉ names →
      Spells c (List.replicate k ".." ++ names)
        ⟨c.project, c.segments.take (c.segments.length - k) ++ names⟩
  | across {f : Address} : f.project ≠ ".." → ".." ∉ f.segments →
      Spells c (List.replicate (c.segments.length + 1) ".." ++ f.project :: f.segments) f

/-- From its project an address is spelled by its segments. -/
theorem spells_segments (hup : ".." ∉ a.segments) : (ofProject a.project).Spells a.segments a := by
  simpa using Spells.within (c := ofProject a.project) (Nat.zero_le _) hup

end Address

namespace Reference

/-- Names joined by slashes are read as these names. -/
theorem segments_ofString_intercalate (hnames : ∀ n ∈ names, Tree.IsSegment n ∧ '\\' ∉ n.toList)
    (htrim : Text.trim ("/".intercalate names) = "/".intercalate names) :
    (ofString ("/".intercalate names)).segments = names := by
  rw [segments, ofString, htrim]
  refine Text.segments_intercalate rfl fun n hn => ⟨(hnames n hn).1.ne_empty, fun c hc => ?_⟩
  have hslash : c ≠ '/' := fun h => (hnames n hn).1.slash_notMem (h ▸ hc)
  have hbackslash : c ≠ '\\' := fun h => (hnames n hn).2 (h ▸ hc)
  simp [isSeparator, hslash, hbackslash]

end Reference

namespace Tree

/-- A project has a site at its location. -/
theorem IsBuilt.exists_site (ht : t.IsBuilt) (h : (t.get? (.ofProject name)).isSome) :
    ∃ site, Site.ofProject? t name = some site := by
  obtain ⟨r, hr⟩ := Option.isSome_iff_exists.1 h
  obtain ⟨location, rfl⟩ := ht.exists_root hr
  exact ⟨⟨name, location.location⟩, by rw [Site.ofProject?, hr]; rfl⟩

/-- **A project is what is selected at its location**, where it is preferred: no
link leads to it, and nothing else in it has a shorter address. -/
theorem IsBuilt.containerAt_root (ht : t.IsBuilt) (hsite : Site.ofProject? t name = some site) :
    t.containerAt site.project site.directory.normalize = some (.ofProject name) := by
  obtain ⟨r, hr, hsite⟩ := Option.bind_eq_some_iff.1 hsite
  obtain ⟨location, rfl⟩ := ht.exists_root hr
  obtain rfl : Site.mk name location.location = site := Option.some.inj hsite
  have hselect : t.select Resource.isContainer name location.location =
      some (.root name location.location) := by
    refine ht.select_eq_some_iff.2 ⟨mem_of_get? hr, rfl, List.mem_cons_self, fun s hs _ _ hne => ?_⟩
    have hlinked : t.isLinked (.ofProject name) = false := by
      have hchain : (Address.ofProject name).chain = [.ofProject name] := rfl
      simp [isLinked, hchain, hr, Resource.root]
    by_cases hproject : s.address.project = name
    · have hdepth : 0 < s.address.segments.length := by
        refine List.length_pos_of_ne_nil fun hnil => hne ?_
        have hget := ht.isGrown.unique s hs
        rw [Address.eq_ofProject_of_segments hnil, hproject, hr] at hget
        exact (Option.some.inj hget).symm
      refine .inr ⟨by simp [rank, Resource.root, hproject], ?_⟩
      cases hother : t.isLinked s.address with
      | true => exact .inl (by simp [rank, Resource.root, hlinked, hother])
      | false => exact .inr ⟨by simp [rank, Resource.root, hlinked, hother], .inl hdepth⟩
    · exact .inl (by simp [rank, Resource.root, hproject])
  rw [Path.location, Route.normalize_normalize, ← Path.location, containerAt, hselect]
  rfl

/-- What is selected as a container is no file. -/
theorem IsGrown.ne_of_containerAt (ht : t.IsGrown) {spelling : Route}
    (hc : t.containerAt project spelling = some c) (hf : t.isFile f = true) : c ≠ f := by
  rintro rfl
  obtain ⟨r, hr, rfl⟩ := Option.map_eq_some_iff.1 hc
  obtain ⟨hmem, hcontainer, -⟩ := of_select hr
  obtain ⟨s, hs, hfile⟩ := isFile_iff.1 hf
  rw [ht.unique r hmem, Option.some.injEq] at hs
  subst hs
  simp [Resource.isFile_iff.1 hfile] at hcontainer

/-- A file is there. -/
theorem isSome_of_isFile (hf : t.isFile f = true) : (t.get? f).isSome := by
  obtain ⟨r, hr, -⟩ := isFile_iff.1 hf
  exact Option.isSome_of_eq_some hr

theorem head?_intercalate_ne (hnames : ∀ n ∈ names, IsSegment n) :
    ("/".intercalate names).toList.head? ≠ some '/' := by
  cases names with
  | nil => simp
  | cons n names =>
    have hn := hnames n List.mem_cons_self
    rw [Text.head?_intercalate hn.ne_empty]
    exact fun hhead => hn.slash_notMem (List.mem_of_mem_head? hhead)

end Tree

namespace Resolver

/-! ## Walks -/

/-- A walk ends at the same place without the steps that stay where they are. -/
theorem foldlM_step_filter (here : Position) :
    (segments.filter (· ≠ ".")).foldlM (step rule t) here = segments.foldlM (step rule t) here := by
  induction segments generalizing here with
  | nil => rfl
  | cons segment segments ih =>
    by_cases hdot : segment = "."
    · subst hdot
      rw [List.filter_cons_of_neg (by simp), ih]
      rfl
    · rw [List.filter_cons_of_pos (by simpa using hdot), List.foldlM_cons, List.foldlM_cons]
      simp only [ih]

/-- So many steps up lead to the address with so many names less. -/
theorem foldlM_step_up (a : Address) (hk : k ≤ a.segments.length) :
    (List.replicate k "..").foldlM (step rule t) (.resource a) =
      some (.resource ⟨a.project, a.segments.take (a.segments.length - k)⟩) := by
  induction k with
  | zero => simp
  | succ k ih =>
    have hne : a.segments.take (a.segments.length - k) ≠ [] := by
      rw [ne_eq, List.take_eq_nil_iff, ← List.length_eq_zero_iff]
      omega
    have hparent : Address.parent? ⟨a.project, a.segments.take (a.segments.length - k)⟩ =
        some ⟨a.project, a.segments.take (a.segments.length - (k + 1))⟩ := by
      rw [Address.parent?, if_neg (by simpa using hne), List.dropLast_eq_take, List.take_take,
        List.length_take]
      congr 3
      omega
    rw [List.replicate_succ', List.foldlM_append, ih (by omega)]
    simp [step, hparent]

/-- Names that are there are walked down as they stand. -/
theorem foldlM_step_down (ht : t.IsGrown) (hup : ".." ∉ names) (hdot : "." ∉ names)
    (h : (t.get? ⟨project, above ++ names⟩).isSome) :
    names.foldlM (step rule t) (.resource ⟨project, above⟩) =
      some (.resource ⟨project, above ++ names⟩) := by
  induction names generalizing above with
  | nil => simp
  | cons n names ih =>
    rw [List.mem_cons, not_or] at hup hdot
    have hrest : (t.get? ⟨project, (above ++ [n]) ++ names⟩).isSome := by simpa using h
    have hchild : child? rule t ⟨project, above⟩ n = some ⟨project, above ++ [n]⟩ :=
      if_pos (ht.isSome_of_append hrest)
    have hstep : step rule t (.resource ⟨project, above⟩) n =
        some (.resource ⟨project, above ++ [n]⟩) := by
      simp [step, Ne.symm hup.1, Ne.symm hdot.1, hchild]
    rw [List.foldlM_cons, hstep]
    simpa using ih hup.2 hdot.2 hrest

/-- **A walk along a spelling of an address ends there.** -/
theorem walk?_of_spells (ht : t.IsGrown) (hf : (t.get? f).isSome)
    (h : c.Spells (segments.filter (· ≠ ".")) f) : walk? rule t c segments = some f := by
  have hdot : "." ∉ segments.filter (· ≠ ".") := by simp
  have hwalk : segments.foldlM (step rule t) (.resource c) = some (.resource f) := by
    rw [← foldlM_step_filter]
    generalize segments.filter (· ≠ ".") = spelling at h hdot
    cases h with
    | within hk hup =>
      rw [List.mem_append, not_or] at hdot
      rw [List.foldlM_append, foldlM_step_up c hk]
      exact foldlM_step_down ht hup hdot.2 hf
    | across hproject hup =>
      simp only [List.mem_append, List.mem_cons, not_or] at hdot
      have htop : (List.replicate (c.segments.length + 1) "..").foldlM (step rule t) (.resource c) =
          some .workspace := by
        rw [List.replicate_succ', List.foldlM_append, foldlM_step_up c le_rfl, Nat.sub_self,
          List.take_zero]
        rfl
      have hfound : project? rule t f.project = some (.ofProject f.project) :=
        if_pos (ht.isSome_root hf)
      have hstep : step rule t .workspace f.project = some (.resource ⟨f.project, []⟩) := by
        simp [step, hproject, Ne.symm hdot.2.1, hfound, Address.ofProject]
      rw [List.foldlM_append, htop, Option.bind_eq_bind, Option.bind_some, List.foldlM_cons, hstep]
      exact foldlM_step_down ht hup hdot.2.2 (by simpa using hf)
  rw [walk?, hwalk]

/-! ## Spellings of files -/

/-- Where the walk along a spelling starts, it ends at the file before any other
rule is tried. -/
theorem resolveRelative_of_spells (ht : t.IsGrown) (hf : t.isFile f = true)
    (hc : t.containerAt site.project site.directory.normalize = some c) {ref : Reference}
    (h : c.Spells (ref.segments.filter (· ≠ ".")) f) :
    resolver.resolveRelative t d site ref = some f := by
  have hstart : t.containerAtLocation d site.project site.directory = some c := by
    rw [Tree.containerAtLocation, Tree.atLocation, hc]
    rfl
  simp [resolveRelative, hstart, walk?_of_spells ht (Tree.isSome_of_isFile hf) h, hf]

/-- A relative text that spells a file from the directory of the site means that
file. -/
theorem resolve_of_spells (ht : t.IsGrown) (hcygwin : resolver.cygwin.IsRooted)
    (hf : t.isFile f = true) (hc : t.containerAt site.project site.directory.normalize = some c)
    (htrim : Text.trim text = text) (hhead : text.toList.head? ≠ some '/')
    (h : c.Spells ((Reference.ofString text).segments.filter (· ≠ ".")) f) :
    resolver.resolve t d site (.ofString text) = .unique f := by
  have href : (Reference.ofString text).text = text := htrim
  have habs : (Path.ofString text).isAbsolute = false := by
    rw [Path.isAbsolute_ofString]
    simpa using hhead
  have hhost : resolver.hostPath? (.ofString text) = none := by
    simp [hostPath?, Reference.path, href, habs, hcygwin.recognizes_eq_false hhead]
  have hempty : (Reference.ofString text).text.isEmpty = false := by
    rw [href, Bool.eq_false_iff]
    intro hempty
    obtain rfl := String.isEmpty_iff.1 hempty
    -- nothing is written, so the walk stays where it starts, which is no file
    have hsegments : (Reference.ofString "").segments = [] := by decide
    have hwalk : walk? resolver.caseRule t c (Reference.ofString "").segments = some f :=
      walk?_of_spells ht (Tree.isSome_of_isFile hf) h
    rw [hsegments] at hwalk
    exact ht.ne_of_containerAt hc hf (Option.some.inj hwalk)
  rw [resolve_eq, hempty, hhost]
  simp [resolveOpaque, resolveRelative_of_spells ht hf hc h]

/-- **Every relative spelling of a file means the file**, from wherever it leads
there. So does its path from the location of its project. -/
theorem resolve_relative {calls : List Call} (hcalls : ∀ call ∈ calls, call.IsSpelled)
    (resolver : Resolver) (hcygwin : resolver.cygwin.IsRooted) (d : Disk) :
    let t := Tree.empty.applyAll calls
    (∀ site c f text, t.containerAt site.project site.directory.normalize = some c →
      t.isFile f = true →
      Text.trim text = text → text.toList.head? ≠ some '/' →
      c.Spells ((Reference.ofString text).segments.filter (· ≠ ".")) f →
      resolver.resolve t d site (.ofString text) = .unique f) ∧
    ∀ f, t.isFile f = true → (∀ n ∈ f.segments, n ≠ ".." ∧ '\\' ∉ n.toList) →
      Text.trim ("/".intercalate f.segments) = "/".intercalate f.segments →
      ∃ site, Site.ofProject? t f.project = some site ∧
        resolver.resolve t d site (.ofString ("/".intercalate f.segments)) = .unique f := by
  intro t
  have ht : t.IsBuilt := Tree.isBuilt_applyAll hcalls
  refine ⟨fun site c f text hc hf htrim hhead h =>
    resolve_of_spells ht.isGrown hcygwin hf hc htrim hhead h,
    fun f hf hnames htrim => ?_⟩
  have hsome := Tree.isSome_of_isFile hf
  obtain ⟨site, hsite⟩ := ht.exists_site (ht.isGrown.isSome_root hsome)
  have hsegment := ht.isSegment_of_isSome hsome
  have hsegments := Reference.segments_ofString_intercalate
    (fun n hn => ⟨hsegment n hn, (hnames n hn).2⟩) htrim
  have hfilter : f.segments.filter (· ≠ ".") = f.segments :=
    List.filter_eq_self.2 fun n hn => decide_eq_true (hsegment n hn).ne_dot
  refine ⟨site, hsite, resolve_of_spells ht.isGrown hcygwin hf (ht.containerAt_root hsite) htrim
    (Tree.head?_intercalate_ne hsegment) ?_⟩
  rw [hsegments, hfilter]
  exact Address.spells_segments fun hup => (hnames _ hup).1 rfl

/-- Two projects, and files of one name in either letter case. -/
def sharedCalls : List Call := [
  .project "P" (.ofString "/ws"),
  .project "Q" (.ofString "/ws/lib"),
  .resource "P" ["src", "A.c"] .file .none,
  .resource "P" ["lib", "a.c"] .file .none,
  .resource "P" ["lib", "A.c"] .file .none,
  .resource "Q" ["a.c"] .file .none]

/-- From a folder of one project a file of the other is spelled across, though a
file of the first one lies at the same location. -/
theorem resolve_relative_shared :
    resolve ⟨.insensitive, .make (some "/cygdrive/") [("/usr", .ofString "/opt")]⟩
      (Tree.empty.applyAll sharedCalls) .looped ⟨"P", .ofNames [.ofString "ws", .ofString "src"]⟩
      (.ofString "../..\\Q/./a.c") = .unique ⟨"Q", ["a.c"]⟩ := by
  have hspelled : ∀ c ∈ sharedCalls, c.IsSpelled := by decide
  have hrooted : (CygwinMap.make (some "/cygdrive/") [("/usr", .ofString "/opt")]).IsRooted :=
    CygwinMap.isRooted_make (by decide) (by decide)
  have hsegments : (Reference.ofString "../..\\Q/./a.c").segments.filter (· ≠ ".") =
      List.replicate 2 ".." ++ ["Q", "a.c"] := by decide
  refine (resolve_relative hspelled _ hrooted .looped).1 _ ⟨"P", ["src"]⟩ _ _
    (by decide) (by decide) (by decide) (by decide) ?_
  rw [hsegments]
  exact .across (f := ⟨"Q", ["a.c"]⟩) (by decide) (by decide)

end Resolver

end BuildMarkers
