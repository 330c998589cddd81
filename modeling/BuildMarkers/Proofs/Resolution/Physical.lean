import BuildMarkers.Proofs.Resolution.Rules
import BuildMarkers.Proofs.Workspace.Portrayal
import Mathlib.Data.List.Permutation
/-!
# Looking up an absolute path

A lookup tries the spellings of a path one after the other, and all of them lead
where the path leads (`canonicalize_of_mem_spellings`). In a tree that portrays the
disk a spelling finds files only that lie where the spelling leads, so what is found
lies where the path leads. The fully resolved spelling is the location of every file
that lies there, so a file is found if there is one. A path into a closed directory is
refused, and then it is its name in the resolved directory that decides.
-/

namespace BuildMarkers

variable {d : Disk} {t : Tree} {r f : Resource} {a : Address} {p : Place} {n : FileName}
  {names : List FileName} {key route : Route} {preferred : String}

namespace Tree

/-- **A spelling finds files that lie where it leads**, or are withheld. -/
theorem Portrays.fileAt (ht : t.Portrays d) (h : t.fileAt preferred key = some a) :
    ∃ f, t.get? a = some f ∧ f.isFile = true ∧ key ∈ f.spellings ∧
      ((∃ p, d.isDirectory p = false ∧ f.LiesAt d p) ∨ ∃ p n, f.IsWithheld d p n) := by
  obtain ⟨f, hf, rfl⟩ := Option.map_eq_some_iff.1 h
  obtain ⟨hmem, hfile, hkey⟩ := of_select hf
  rcases ht.files f hmem hfile with hnone | hportrayed
  · rw [hnone] at hkey
    cases hkey
  · exact ⟨f, ht.unique f hmem, hfile, hkey, hportrayed⟩

end Tree

namespace Disk

/-- What a route to a name is with its directory resolved. -/
theorem resolvedParent?_concat_eq_some :
    d.resolvedParent? (route ++ [.name n]) = some key ↔
      ∃ q, d.canonicalize route.toPath = .ok q ∧ key = .ofNames (q ++ [n]) := by
  rw [resolvedParent?, List.getLast?_concat, List.dropLast_concat]
  simp only [Option.map_eq_some_iff, resolved?_eq_some]
  constructor
  · rintro ⟨_, ⟨q, hq, rfl⟩, rfl⟩
    exact ⟨q, hq, (Route.ofNames_concat q n).symm⟩
  · rintro ⟨q, hq, rfl⟩
    exact ⟨_, ⟨q, hq, rfl⟩, (Route.ofNames_concat q n).symm⟩

/-- The spellings of a route: as it is, with its directory resolved, and resolved. -/
theorem mem_spellings_iff : key ∈ d.spellings route ↔
    key = route.normalize ∨ d.resolvedParent? route.normalize = some key ∨
      d.resolved? route.normalize = some key := by
  simp only [spellings, List.mem_eraseDups, List.mem_cons, List.mem_filterMap, id]
  constructor
  · rintro (rfl | ⟨_, rfl | rfl | h, hkey⟩)
    · exact .inl rfl
    · exact .inr (.inl hkey)
    · exact .inr (.inr hkey)
    · cases h
  · rintro (rfl | hkey | hkey)
    · exact .inl rfl
    · exact .inr ⟨_, .inl rfl, hkey⟩
    · exact .inr ⟨_, .inr (.inl rfl), hkey⟩

/-- **Every spelling of a path leads where the path leads**, or fails as it does. -/
theorem canonicalize_of_mem_spellings (hd : d.IsSound) (hlimit : d.linkLimit = none)
    (hplain : ∀ n ∈ names, n.IsPlain) (hroute : route.normalize = .ofNames names)
    (hkey : key ∈ d.spellings route) :
    d.canonicalize key.toPath = d.canonicalize (Route.ofNames names).toPath := by
  rw [mem_spellings_iff, hroute] at hkey
  rcases hkey with rfl | hkey | hkey
  · rfl
  · -- the directory of the path resolved: the last name leads on from there
    rcases List.eq_nil_or_concat' names with rfl | ⟨names, n, rfl⟩
    · cases hkey
    rw [Route.ofNames_concat, resolvedParent?_concat_eq_some] at hkey
    obtain ⟨q, hq, rfl⟩ := hkey
    obtain ⟨hnames, hn⟩ := forall_mem_concat.1 hplain
    by_cases hnul : 0 ∈ n.bytes
    · have hq' := (stands_of_toPath hq).isPlain hd
      have hfault {names : List FileName} (hplain : ∀ m ∈ names, m.IsPlain) :
          d.canonicalize (Route.ofNames (names ++ [n])).toPath = .error .nulByte := by
        have hbytes : 0 ∈ (Route.ofNames (names ++ [n])).toPath.bytes := by
          rw [Route.bytes_toPath (forall_mem_concat.2 ⟨hplain, hn⟩) (by simp), List.mem_flatMap]
          exact ⟨n, by simp, List.mem_cons_of_mem _ hnul⟩
        simp [canonicalize, hbytes, throw, throwThe, MonadExceptOf.throw, bind, Except.bind]
      rw [hfault hq', hfault hnames]
    · exact (canonicalize_concat_congr hd hlimit hnames hn hnul hq).symm
  · -- the path resolved
    obtain ⟨q, hq, rfl⟩ := resolved?_eq_some.1 hkey
    rw [hq, canonicalize_toPath hd (stands_of_toPath hq)]

end Disk

/-- **What is withheld is found by its name in the resolved directory only**: that is
where it is located. -/
theorem Resource.IsWithheld.resolvedParent? (hd : d.IsSound) (hlimit : d.linkLimit = none)
    (h : f.IsWithheld d p n) (hroute : route.normalize = .ofNames names)
    (hkey : key ∈ d.spellings route) (hf : key ∈ f.spellings) :
    d.resolvedParent? (.ofNames names) = f.location := by
  obtain ⟨above, rfl, habove⟩ := h.leads key hf
  have hrefused := h.refused hd hlimit hf
  obtain ⟨-, -, -, hto⟩ := habove
  rw [Disk.mem_spellings_iff, hroute] at hkey
  rw [h.location_eq]
  rcases hkey with heq | hparent | hresolved
  · rw [← heq]
    exact Disk.resolvedParent?_concat_eq_some.2 ⟨p, hto, rfl⟩
  · -- the directory is resolved already, so it is the one that withholds the file
    rw [hparent]
    rcases List.eq_nil_or_concat' names with rfl | ⟨names, m, rfl⟩
    · cases hparent
    rw [Route.ofNames_concat, Disk.resolvedParent?_concat_eq_some] at hparent
    obtain ⟨q, hq, heq⟩ := hparent
    rw [Route.ofNames_concat] at heq
    obtain ⟨rfl, hname⟩ := List.append_inj' heq rfl
    obtain rfl := (Disk.stands_of_toPath hq).isOwn hd p hto
    rw [Component.name.inj (List.singleton_inj.1 hname), Route.ofNames_concat]
  · obtain ⟨q, hq, heq⟩ := Disk.resolved?_eq_some.1 hresolved
    rw [heq, Disk.canonicalize_toPath hd (Disk.stands_of_toPath hq)] at hrefused
    cases hrefused

namespace Tree

/-- **What an absolute path finds lies where the path leads**, or in the closed directory
at which the path is refused. -/
theorem Portrays.fileAtLocation (ht : t.Portrays d) (hd : d.IsSound) (hlimit : d.linkLimit = none)
    (hplain : ∀ n ∈ names, n.IsPlain) (hroute : route.normalize = .ofNames names)
    (h : t.fileAtLocation d preferred route = some a) :
    ∃ f, t.get? a = some f ∧ f.isFile = true ∧
      ((∃ p, d.canonicalize (Route.ofNames names).toPath = .ok p ∧ d.isDirectory p = false ∧
        f.location = some (.ofNames p)) ∨
      (d.canonicalize (Route.ofNames names).toPath = .error .accessDenied ∧
        f.location.isSome ∧ d.resolvedParent? (.ofNames names) = f.location)) := by
  obtain ⟨key, hkey, hfind⟩ := exists_of_atLocation h
  obtain ⟨f, hget, hfile, hspelling, hportrayed⟩ := ht.fileAt hfind
  have hsame := Disk.canonicalize_of_mem_spellings hd hlimit hplain hroute hkey
  refine ⟨f, hget, hfile, ?_⟩
  rcases hportrayed with ⟨p, hp, hlies⟩ | ⟨p, n, hwithheld⟩
  · obtain ⟨-, -, -, hto⟩ := hlies.leads key hspelling
    exact .inl ⟨p, hsame.symm.trans hto, hp, hlies.location_eq⟩
  · refine .inr ⟨hsame.symm.trans (hwithheld.refused hd hlimit hspelling), ?_,
      hwithheld.resolvedParent? hd hlimit hroute hkey hspelling⟩
    rw [hwithheld.location_eq]
    rfl

end Tree

namespace Resolver

end Resolver

end BuildMarkers
