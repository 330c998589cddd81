import BuildMarkers.Proofs.Disk.Standing
import BuildMarkers.Proofs.Path.Plain
import BuildMarkers.Proofs.Reference.Points
import BuildMarkers.Proofs.Resolution.Rules
/-!
# References in Cygwin's terms

A Cygwin map puts another reference in the place of one that it recognizes, and takes no
other part in a resolution (`resolve_translated`). If what the reference translates to is
an absolute path, this path stands for it. If not, the reference is read without the slashes
in front, since the rules for references that are no absolute path see segments only. What
the map does not recognize is resolved as if there were none.
-/

namespace BuildMarkers

variable {d : Disk} {t : Tree} {map : CygwinMap} {rule : CaseRule} {site : Site} {ref : Reference}
  {text s : String} {path : Path} {drives : Option String} {mounts : List (String × Path)}

namespace CygwinMap

/-- Nothing is mapped. -/
def nothing : CygwinMap := ⟨none, []⟩

theorem recognizes_nothing (text : String) : nothing.recognizes text = false := rfl

theorem trimPoint_ne_nil (point : String) : trimPoint point ≠ [] := by
  unfold trimPoint
  extract_lets trimmed
  split_ifs with h
  · simp
  · exact fun hnil => h (List.isEmpty_iff.2 hnil)

theorem after?_nil {point : List Char} (h : point ≠ []) : after? point [] = none := by
  rw [Option.eq_none_iff_forall_ne_some]
  intro rest hrest
  exact h (List.append_eq_nil_iff.1 (after?_eq_some_iff.1 hrest).symm).1

/-- A map does not recognize the empty text: its points are not empty. -/
theorem recognizes_make_empty : (make drives mounts).recognizes "" = false := by
  have hdrive : (make drives mounts).drive? "".toList = none := by
    cases drives with
    | none => rfl
    | some point => simp [drive?, make, after?_nil]
  have hmount : (make drives mounts).mount? "".toList = none := by
    refine List.findSome?_eq_none_iff.2 fun mount hmem => ?_
    rw [make, (List.mergeSort_perm _ _).mem_iff] at hmem
    obtain ⟨m, -, rfl⟩ := List.mem_map.1 hmem
    simp [after?_nil (trimPoint_ne_nil m.1)]
  rw [recognizes, hdrive, hmount]
  rfl

end CygwinMap

namespace Reference

/-- The text without the slashes in front. -/
def dropSlashes (text : String) : String := String.ofList (text.toList.dropWhile (· = '/'))

/-- The white space around a text is no part of the reference. -/
theorem ofString_of_trim (h : Text.trim text = text) : ofString text = ⟨text⟩ := by
  rw [ofString, h]

/-- No white space is at the end of a reference. -/
theorem getLast?_ofString (s : String) :
    ∀ c ∈ (ofString s).text.toList.getLast?, Text.isBlank c = false := by
  rw [ofString, Text.trim, String.toList_ofList]
  exact Text.getLast?_dropTrailing _ _

/-- Nor around what is behind its slashes, unless that starts with some. -/
theorem trim_dropSlashes
    (hblank : ∀ c ∈ (dropSlashes (ofString s).text).toList.head?, Text.isBlank c = false) :
    Text.trim (dropSlashes (ofString s).text) = dropSlashes (ofString s).text := by
  have hlast : ∀ c ∈ (dropSlashes (ofString s).text).toList.getLast?, Text.isBlank c = false := by
    intro c hc
    obtain ⟨front, htext⟩ := List.dropWhile_suffix (l := (ofString s).text.toList) (· = '/')
    rw [dropSlashes, String.toList_ofList] at hc
    refine getLast?_ofString s c ?_
    rw [← htext, List.getLast?_append, Option.mem_def.1 hc]
    rfl
  rw [Text.trim, Text.trimChars, Text.stripBoth_eq_self hblank hlast, String.ofList_toList]

/-- Slashes in front bound no segment. -/
theorem segments_dropSlashes (text : String) : segments ⟨dropSlashes text⟩ = segments ⟨text⟩ := by
  have hrun : ∀ c ∈ text.toList.takeWhile (· = '/'), isSeparator c = true := by
    intro c hc
    have hslash := List.mem_takeWhile_imp hc
    simp [isSeparator, of_decide_eq_true hslash]
  have hsegments := Text.filter_splitOnP_append_left hrun (text.toList.dropWhile (· = '/'))
  rw [List.takeWhile_append_dropWhile] at hsegments
  simp only [segments, Text.segments, dropSlashes, String.toList_ofList, hsegments]

end Reference

namespace Resolver

/-- What is no absolute path is left to the other rules where nothing is mapped. -/
theorem resolve_nothing_of_not_isAbsolute (htrim : Text.trim text = text) (hne : text ≠ "")
    (habs : (Path.ofString text).isAbsolute = false) :
    resolve ⟨rule, .nothing⟩ t d site (.ofString text) =
      resolveOpaque ⟨rule, .nothing⟩ t d site (.ofString text) := by
  simp [resolve, Reference.ofString, Reference.path, htrim, hne, CygwinMap.recognizes_nothing, habs]

/-- **A map is of no influence but by what it recognizes.** -/
theorem resolve_of_recognizes_eq_false (h : map.recognizes ref.text = false) :
    resolve ⟨rule, map⟩ t d site ref = resolve ⟨rule, .nothing⟩ t d site ref := by
  have hopaque : resolveOpaque ⟨rule, map⟩ t d site ref =
      resolveOpaque ⟨rule, .nothing⟩ t d site ref :=
    resolveOpaque_congr rfl rfl
  simp [resolve, h, CygwinMap.recognizes_nothing, hopaque]

/-- **A reference that translates to an absolute path** is resolved as this path. -/
theorem resolve_of_translate? (hne : ref.text ≠ "") (hrecognizes : map.recognizes ref.text = true)
    (htranslate : map.translate? ref.text = some (.ofString text))
    (habs : (Path.ofString text).isAbsolute = true) (htrim : Text.trim text = text) :
    resolve ⟨rule, map⟩ t d site ref = resolve ⟨rule, .nothing⟩ t d site (.ofString text) := by
  rw [resolve_eq_resolveAbsolute htrim habs (CygwinMap.recognizes_nothing text)]
  simp [resolve, hne, hrecognizes, htranslate, habs]

/-- **Any other that is recognized** is resolved without the slashes in front. -/
theorem resolve_of_translate?_relative (hne : (Reference.ofString s).text ≠ "")
    (hrecognizes : map.recognizes (Reference.ofString s).text = true)
    (htranslate : map.translate? (Reference.ofString s).text = some path)
    (habs : path.isAbsolute = false)
    (hrest : Reference.dropSlashes (Reference.ofString s).text ≠ "")
    (hblank : ∀ c ∈ (Reference.dropSlashes (Reference.ofString s).text).toList.head?,
      Text.isBlank c = false) :
    resolve ⟨rule, map⟩ t d site (.ofString s) =
      resolve ⟨rule, .nothing⟩ t d site
        (.ofString (Reference.dropSlashes (Reference.ofString s).text)) := by
  have htrim := Reference.trim_dropSlashes hblank
  have hnone :
      (Path.ofString (Reference.dropSlashes (Reference.ofString s).text)).isAbsolute = false := by
    rw [Path.isAbsolute_ofString, beq_eq_false_iff_ne, ne_eq, Reference.dropSlashes,
      String.toList_ofList]
    intro hslash
    have hnot := Text.head?_dropWhile _ _ _ (Option.mem_def.2 hslash)
    simp at hnot
  have hsegments : (Reference.ofString s).segments =
      (Reference.ofString (Reference.dropSlashes (Reference.ofString s).text)).segments := by
    rw [Reference.ofString_of_trim htrim, Reference.segments_dropSlashes]
  rw [resolve_nothing_of_not_isAbsolute htrim hrest hnone]
  have hopaque : resolveOpaque ⟨rule, map⟩ t d site (.ofString s) =
      resolveOpaque ⟨rule, .nothing⟩ t d site
      (.ofString (Reference.dropSlashes (Reference.ofString s).text)) :=
        resolveOpaque_congr rfl hsegments
  simp [resolve, hne, hrecognizes, htranslate, habs, hopaque]

/-- **A Cygwin map does no more than put one reference in the place of another.** One that it
does not recognize is resolved as if nothing were mapped. One that it recognizes is resolved
as the absolute path that it translates to; where that is no absolute path, it is resolved
without the slashes in front, if anything is left of it that does not start with white
space. -/
theorem resolve_translated (rule : CaseRule) (drives : Option String)
    (mounts : List (String × Path)) (t : Tree) (d : Disk) (site : Site) (s : String) :
    let map := CygwinMap.make drives mounts
    let ref := Reference.ofString s
    let mapped := resolve ⟨rule, map⟩ t d site
    let plain := resolve ⟨rule, .nothing⟩ t d site
    let rest := Reference.dropSlashes ref.text
    (map.recognizes ref.text = false → mapped ref = plain ref) ∧
    (map.recognizes ref.text = true → ∃ path, map.translate? ref.text = some path ∧
      (∀ text, path = .ofString text → path.isAbsolute = true → Text.trim text = text →
        mapped ref = plain (.ofString text)) ∧
      (path.isAbsolute = false → rest ≠ "" → (∀ c ∈ rest.toList.head?, Text.isBlank c = false) →
        mapped ref = plain (.ofString rest))) := by
  intro map ref mapped plain rest
  refine ⟨resolve_of_recognizes_eq_false, fun hrecognizes => ?_⟩
  have hne : ref.text ≠ "" := by
    intro hempty
    rw [hempty, CygwinMap.recognizes_make_empty] at hrecognizes
    cases hrecognizes
  obtain ⟨path, hpath⟩ := Option.isSome_iff_exists.1
    ((CygwinMap.recognizes_eq_isSome map ref.text).symm.trans hrecognizes)
  refine ⟨path, hpath, ?_, fun habs hrest hblank => ?_⟩
  · rintro text rfl habs htrim
    exact resolve_of_translate? hne hrecognizes hpath habs htrim
  · exact resolve_of_translate?_relative hne hrecognizes hpath habs hrest hblank

/-- A project with one file. -/
def oneFile : List Call := [.project "P" (.ofString "/ws"), .resource "P" ["main.c"] .file .none]

/-- The location of the project. -/
def atProject : Site := ⟨"P", .ofNames [.ofString "ws"]⟩

/-- Drives, and a mount of the project. -/
def projectMap : CygwinMap := .make (some "/cygdrive") [("/mnt/ws", .ofString "/ws")]

theorem translate?_projectMap_mount :
    projectMap.translate? "/mnt/ws/main.c" = some (.ofString "/ws/main.c") := by
  have hbelow : CygwinMap.Below (CygwinMap.trimPoint "/mnt/ws") "/mnt/ws/main.c".toList
      "/main.c".toList :=
    ⟨by decide, by simp⟩
  have htarget : CygwinMap.targetPath (.ofString "/ws") "/main.c".toList =
      .ofString "/ws/main.c" := by decide
  rw [← htarget]
  exact CygwinMap.translate?_of_mount? (by decide)
    (CygwinMap.mount?_make_eq_some_iff.2 ⟨hbelow, rfl⟩)

theorem translate?_projectMap_drive :
    projectMap.translate? "/cygdrive/c/main.c" = some (.ofString "C:/main.c") := by
  have hpath : CygwinMap.drivePath 'c' "main.c".toList = .ofString "C:/main.c" := by decide
  rw [← hpath]
  exact CygwinMap.translate?_of_drive? (by decide)

/-- The file is found below the mount as at its location. A drive leads nowhere on the host,
so its path is searched by name, and a plain name does not see the map. -/
theorem resolve_translated_mount :
    let mapped := resolve ⟨.sensitive, projectMap⟩ (Tree.empty.applyAll oneFile) .bare atProject
    let plain := resolve ⟨.sensitive, .nothing⟩ (Tree.empty.applyAll oneFile) .bare atProject
    mapped (.ofString "/mnt/ws/main.c") = plain (.ofString "/ws/main.c") ∧
      plain (.ofString "/ws/main.c") = .unique ⟨"P", ["main.c"]⟩ ∧
      mapped (.ofString "/cygdrive/c/main.c") = plain (.ofString "cygdrive/c/main.c") ∧
      mapped (.ofString "main.c") = plain (.ofString "main.c") := by
  intro mapped plain
  have htranslated (s : String) := resolve_translated .sensitive (some "/cygdrive")
    [("/mnt/ws", .ofString "/ws")] (Tree.empty.applyAll oneFile) .bare atProject s
  have hmount : (Reference.ofString "/mnt/ws/main.c").text = "/mnt/ws/main.c" := by decide
  have hdrive : (Reference.ofString "/cygdrive/c/main.c").text = "/cygdrive/c/main.c" := by decide
  refine ⟨?_, by decide, ?_, ?_⟩
  · obtain ⟨path, hpath, habsolute, -⟩ := (htranslated "/mnt/ws/main.c").2
      (by rw [CygwinMap.recognizes_eq_isSome, hmount, ← projectMap,
        translate?_projectMap_mount]; rfl)
    rw [hmount, ← projectMap, translate?_projectMap_mount, Option.some.injEq] at hpath
    exact habsolute _ hpath.symm (by rw [← hpath]; rfl) (by decide)
  · obtain ⟨path, hpath, -, hrelative⟩ := (htranslated "/cygdrive/c/main.c").2
      (by rw [CygwinMap.recognizes_eq_isSome, hdrive, ← projectMap,
        translate?_projectMap_drive]; rfl)
    rw [hdrive, ← projectMap, translate?_projectMap_drive, Option.some.injEq] at hpath
    have hrest : Reference.dropSlashes (Reference.ofString "/cygdrive/c/main.c").text =
        "cygdrive/c/main.c" := by
      decide
    have hsame := hrelative (by rw [← hpath]; rfl)
    rw [hrest] at hsame
    refine hsame (by decide) ?_
    rintro c ⟨⟩
    decide
  · have hrooted : projectMap.IsRooted := CygwinMap.isRooted_make (by simp) (by simp)
    exact (htranslated "main.c").1 (hrooted.recognizes_eq_false (by decide))

end Resolver

end BuildMarkers
