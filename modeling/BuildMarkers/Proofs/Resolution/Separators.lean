import BuildMarkers.Proofs.Disk.Leads
import BuildMarkers.Proofs.Reference.Cygwin
import BuildMarkers.Proofs.Resolution.Rules
import BuildMarkers.Proofs.Resolution.Translated
import BuildMarkers.Proofs.Text.Segments
/-!
# Slashes and backslashes

Between the segments of a reference either separator may stand, and the rules for references
that are no absolute path see nothing but the segments. So they do not tell apart what
differs in separators only (`resolve_slashed`). A path of the host has slashes between its
names, and a backslash in it belongs to a name. Such a name is found nowhere if neither the
tree nor the disk has one (`Tree.fileAtLocation_eq_none`), while the same path with slashes
may well lead to a file (`resolve_slashed_absolute`).
-/

namespace BuildMarkers

/-- The byte of the backslash. -/
def backslash : UInt8 := 0x5C

/-- Some of the backslashes of the text, or all or none, are written as slashes. -/
def Text.Slashed (s t : String) : Prop :=
  List.Forall₂ (fun a b => b = a ∨ a = '\\' ∧ b = '/') s.toList t.toList

/-- There is a backslash in a name of the route. -/
def Route.HasBackslash (r : Route) : Prop := ∃ n : FileName, .name n ∈ r ∧ backslash ∈ n.bytes

/-- No resource is found under a name with a backslash. -/
def Tree.LacksBackslash (t : Tree) : Prop :=
  ∀ r ∈ t.resources, ∀ spelling ∈ r.spellings, ¬ spelling.HasBackslash

/-- No name on the disk has a backslash. -/
def Disk.LacksBackslash (d : Disk) : Prop := ∀ e ∈ d.entries, ∀ n ∈ e.1, backslash ∉ n.bytes

variable {d : Disk} {t : Tree} {resolver : Resolver} {site : Site} {ref : Reference}
  {route key : Route} {names : List FileName} {s s' preferred : String} {path : Path}

/-! ## References that differ in separators -/

namespace Text.Slashed

theorem isBlank_eq {a b : Char} (h : b = a ∨ a = '\\' ∧ b = '/') : isBlank a = isBlank b := by
  rcases h with rfl | ⟨rfl, rfl⟩
  · rfl
  · decide

/-- The white space around the text is the same. -/
theorem ofString (h : Slashed s s') :
    Slashed (Reference.ofString s).text (Reference.ofString s').text := by
  rw [Slashed, Reference.ofString, Reference.ofString, trim, trim, String.toList_ofList,
    String.toList_ofList]
  exact forall₂_stripBoth (fun _ _ hab => isBlank_eq hab) h

theorem isEmpty_eq (h : Slashed s s') : s.isEmpty = s'.isEmpty := by
  have hlength : s.toList.length = s'.toList.length := List.Forall₂.length_eq h
  rw [Bool.eq_iff_iff, String.isEmpty_iff, String.isEmpty_iff, ← String.toList_eq_nil_iff,
    ← String.toList_eq_nil_iff, ← List.length_eq_zero_iff, ← List.length_eq_zero_iff, hlength]

/-- **The segments are the same.** -/
theorem segments_eq (h : Slashed s s') : Reference.segments ⟨s⟩ = Reference.segments ⟨s'⟩ := by
  have hsplit : s.toList.splitOnP Reference.isSeparator =
      s'.toList.splitOnP Reference.isSeparator := by
    refine splitOnP_congr (h.imp fun a b hab => ?_)
    rcases hab with rfl | ⟨rfl, rfl⟩
    · exact .inl rfl
    · exact .inr ⟨rfl, rfl⟩
  rw [Reference.segments, Reference.segments, segments, segments, hsplit]

/-- What does not start with a separator still does not. -/
theorem head?_eq (h : Slashed s s')
    (hhead : ∀ c ∈ s.toList.head?, Reference.isSeparator c = false) :
    s'.toList.head? = s.toList.head? := by
  unfold Slashed at h
  generalize s.toList = chars at h hhead
  generalize s'.toList = chars' at h
  cases h with
  | nil => rfl
  | cons hab _ =>
    rcases hab with rfl | ⟨rfl, -⟩
    · rfl
    · cases hhead '\\' rfl

end Text.Slashed

/-! ## Names with a backslash -/

theorem Route.hasBackslash_ofNames :
    (Route.ofNames names).HasBackslash ↔ ∃ n ∈ names, backslash ∈ n.bytes := by
  simp [HasBackslash, ofNames]

/-- **Every spelling keeps a name that is not on the disk.** -/
theorem Disk.hasBackslash_of_mem_spellings (hd : d.LacksBackslash) (hplain : ∀ n ∈ names, n.IsPlain)
    (hroute : route.normalize = .ofNames names) (hslash : ∃ n ∈ names, backslash ∈ n.bytes)
    (hkey : key ∈ d.spellings route) : key.HasBackslash := by
  have hlacks {names : List FileName} {p : Place} (hplain : ∀ n ∈ names, n.IsPlain)
      (h : d.canonicalize (Route.ofNames names).toPath = .ok p) :
      ∀ n ∈ names, backslash ∉ n.bytes := by
    intro n hn
    obtain ⟨e, he, hne⟩ := Disk.exists_entry_of_canonicalize hplain h n hn
    exact hd e he n hne
  obtain ⟨n, hn, hbytes⟩ := hslash
  rw [Disk.spellings, List.mem_eraseDups, hroute, List.mem_cons, List.mem_filterMap] at hkey
  rcases hkey with rfl | ⟨other, hother, hkey⟩
  · exact Route.hasBackslash_ofNames.2 ⟨n, hn, hbytes⟩
  rw [List.mem_cons, List.mem_singleton] at hother
  rcases hother with rfl | rfl
  · -- the directory is on the disk, so the name is the last one, which is kept
    rcases List.eq_nil_or_concat' names with rfl | ⟨names, last, rfl⟩
    · cases hn
    rw [id, Disk.resolvedParent?, Route.ofNames_concat, List.getLast?_concat,
      List.dropLast_concat] at hkey
    obtain ⟨parent, hparent, rfl⟩ := Option.map_eq_some_iff.1 hkey
    obtain ⟨p, hp, rfl⟩ := Disk.resolved?_eq_some.1 hparent
    obtain ⟨hnames, -⟩ := forall_mem_concat.1 hplain
    rcases List.mem_append.1 hn with hn | hn
    · exact absurd hbytes (hlacks hnames hp n hn)
    · rw [List.mem_singleton] at hn
      exact ⟨n, by simp [hn], hbytes⟩
  · obtain ⟨p, hp, rfl⟩ := Disk.resolved?_eq_some.1 hkey
    exact absurd hbytes (hlacks hplain hp n hn)

/-- **A name that neither the tree nor the disk has is found nowhere.** -/
theorem Tree.fileAtLocation_eq_none (ht : t.LacksBackslash) (hd : d.LacksBackslash)
    (habs : path.isAbsolute = true) (hslash : path.location.HasBackslash) :
    t.fileAtLocation d preferred path.route = none := by
  obtain ⟨names, hplain, hnames⟩ := Path.location_eq_ofNames habs
  have hname : ∃ n ∈ names, backslash ∈ n.bytes := Route.hasBackslash_ofNames.1 (hnames ▸ hslash)
  rw [Option.eq_none_iff_forall_ne_some]
  intro a ha
  obtain ⟨key, hkey, hfind⟩ := Tree.exists_of_atLocation ha
  obtain ⟨f, hf, -⟩ := Option.map_eq_some_iff.1 hfind
  obtain ⟨hmem, -, hspelling⟩ := Tree.of_select hf
  exact ht f hmem key hspelling (Disk.hasBackslash_of_mem_spellings hd hplain hnames hname hkey)

namespace Resolver

theorem isAbsolute_of_hostPath? (h : resolver.hostPath? ref = some path) :
    path.isAbsolute = true := by
  unfold hostPath? at h
  split_ifs at h with hrecognizes habs
  · exact (Option.filter_eq_some_iff.1 h).2
  · exact Option.some.inj h ▸ habs

/-- What does not start with a slash stands for no path of the host, if the points of the map
start with one. -/
theorem hostPath?_eq_none (hrooted : resolver.cygwin.IsRooted)
    (hhead : ref.text.toList.head? ≠ some '/') :
    resolver.hostPath? ref = none := by
  have habs : ref.path.isAbsolute = false := by
    rw [Reference.path, Path.isAbsolute_ofString, beq_eq_false_iff_ne]
    exact hhead
  simp [hostPath?, hrooted.recognizes_eq_false hhead, habs]

/-- **It does not matter which separators a reference has**, as long as it stands for no path of
the host with either; so it never does where it starts with no separator. But a path of the
host is looked up as it is written, and one in which a backslash is left leads nowhere if
neither the tree nor the disk has a name with one. -/
theorem resolve_slashed (resolver : Resolver) (t : Tree) (d : Disk) (site : Site)
    (h : Text.Slashed s s') :
    let ref := Reference.ofString s
    let ref' := Reference.ofString s'
    (resolver.hostPath? ref = none → resolver.hostPath? ref' = none →
      resolver.resolve t d site ref' = resolver.resolve t d site ref) ∧
    (resolver.cygwin.IsRooted → (∀ c ∈ ref.text.toList.head?, Reference.isSeparator c = false) →
      resolver.resolve t d site ref' = resolver.resolve t d site ref) ∧
    ∀ path, resolver.hostPath? ref = some path → path.location.HasBackslash → t.LacksBackslash →
      d.LacksBackslash → resolver.resolve t d site ref = .noMatch := by
  intro ref ref'
  have htext : Text.Slashed ref.text ref'.text := h.ofString
  have hopaque : resolver.resolveOpaque t d site ref' = resolver.resolveOpaque t d site ref :=
    resolveOpaque_congr rfl htext.segments_eq.symm
  have hsame (hhost : resolver.hostPath? ref = none) (hhost' : resolver.hostPath? ref' = none) :
      resolver.resolve t d site ref' = resolver.resolve t d site ref := by
    rw [resolve_eq, resolve_eq, hhost, hhost', htext.isEmpty_eq, hopaque]
  refine ⟨hsame, fun hrooted hhead => ?_, fun path hpath hslash ht hd => ?_⟩
  · have hne : ref.text.toList.head? ≠ some '/' := fun hslash => by cases hhead '/' hslash
    have hne' : ref'.text.toList.head? ≠ some '/' := by rwa [htext.head?_eq hhead]
    exact hsame (hostPath?_eq_none hrooted hne) (hostPath?_eq_none hrooted hne')
  · have hnone : t.fileAtLocation d site.project path.route = none :=
      Tree.fileAtLocation_eq_none ht hd (isAbsolute_of_hostPath? hpath) hslash
    rw [resolve_eq, hpath]
    simp [resolveAbsolute, hnone]

theorem lacksBackslash_oneFile : (Tree.empty.applyAll oneFile).LacksBackslash := by
  have hspellings : (Tree.empty.applyAll oneFile).resources.flatMap (·.spellings) =
      [.ofNames [.ofString "ws"], .ofNames [.ofString "ws", .ofString "main.c"]] := by decide
  intro r hr key hkey
  have hmem := List.mem_flatMap_of_mem hr hkey
  rw [hspellings, List.mem_cons, List.mem_singleton] at hmem
  rcases hmem with rfl | rfl <;> rw [Route.hasBackslash_ofNames] <;> decide

/-- Drives, and no mounts. -/
def drivesOnly : CygwinMap := ⟨some "/cygdrive".toList, []⟩

/-- A path of Cygwin with a drive and a path from the project are read alike with either
separator. The file's own path with a backslash leads nowhere. -/
theorem resolve_slashed_drive :
    let resolve (s : String) := resolve ⟨.sensitive, drivesOnly⟩ (Tree.empty.applyAll oneFile)
      .bare atProject (.ofString s)
    resolve "/cygdrive/c/ws/main.c" = resolve "/cygdrive/c/ws\\main.c" ∧
      resolve "./main.c" = resolve ".\\main.c" ∧ resolve "/ws\\main.c" = .noMatch := by
  intro resolve
  have hslashed {s s' : String} (h : Text.Slashed s s') := resolve_slashed ⟨.sensitive, drivesOnly⟩
    (Tree.empty.applyAll oneFile) .bare atProject h
  refine ⟨?_, ?_, ?_⟩
  · have hdrive {s : String} (rest : List Char)
        (h : drivesOnly.drive? (Reference.ofString s).text.toList = some ('c', rest)) :
        hostPath? ⟨.sensitive, drivesOnly⟩ (.ofString s) = none := by
      have habs : (CygwinMap.drivePath 'c' rest).isAbsolute = false := by
        rw [CygwinMap.drivePath, Path.isAbsolute_ofString, String.toList_ofList]
        rfl
      simp [hostPath?, CygwinMap.recognizes_eq_isSome, CygwinMap.translate?_of_drive? h, habs]
    have hback : (Reference.ofString "/cygdrive/c/ws\\main.c").text = "/cygdrive/c/ws\\main.c" := by
      decide
    have hslash : (Reference.ofString "/cygdrive/c/ws/main.c").text = "/cygdrive/c/ws/main.c" := by
      decide
    exact (hslashed (by simp [Text.Slashed])).1 (hdrive "ws\\main.c".toList (by rw [hback]; decide))
      (hdrive "ws/main.c".toList (by rw [hslash]; decide))
  · have hback : (Reference.ofString ".\\main.c").text = ".\\main.c" := by decide
    exact (hslashed (by simp [Text.Slashed])).2.1 ⟨by simp [drivesOnly], by simp [drivesOnly]⟩
      (by simp [hback, Reference.isSeparator])
  · have hlocation : (Path.ofString "/ws\\main.c").location =
        .ofNames [.ofString "ws\\main.c"] := by decide
    have hslash : (Path.ofString "/ws\\main.c").location.HasBackslash := by
      rw [hlocation, Route.hasBackslash_ofNames]
      decide
    have htext : (Reference.ofString "/ws\\main.c").text = "/ws\\main.c" := by decide
    have hrecognizes : drivesOnly.recognizes "/ws\\main.c" = false := by decide
    have hhost : hostPath? ⟨.sensitive, drivesOnly⟩ (.ofString "/ws\\main.c") =
        some (.ofString "/ws\\main.c") := by
      rw [hostPath?, htext, hrecognizes, Reference.path, htext]
      rfl
    exact (hslashed (show Text.Slashed "/ws\\main.c" "/ws/main.c" by simp [Text.Slashed])).2.2 _
      hhost hslash lacksBackslash_oneFile (by simp [Disk.LacksBackslash, Disk.bare])

/-- **The path of a file does not lead to it with a backslash.** -/
theorem resolve_slashed_absolute :
    let resolve (s : String) := resolve ⟨.sensitive, .nothing⟩ (Tree.empty.applyAll oneFile)
      .bare atProject (.ofString s)
    (Tree.empty.applyAll oneFile).LacksBackslash ∧ Text.Slashed "/ws\\main.c" "/ws/main.c" ∧
      resolve "/ws/main.c" = .unique ⟨"P", ["main.c"]⟩ ∧ resolve "/ws\\main.c" = .noMatch :=
  ⟨lacksBackslash_oneFile, by simp [Text.Slashed], by decide, by decide⟩

end Resolver

end BuildMarkers
