import BuildMarkers.Proofs.Reference.Mounts
import BuildMarkers.Proofs.Text.Segments
import BuildMarkers.Settings.Validation
import Mathlib.Data.List.Permutation
/-!
# What lies below a point

Behind the point of the drives stands the letter of a drive, behind that of a mount the
names below its target, each after a slash. A point with a name in it is read in this way,
however many slashes are put behind it (`translate?_textBelow`). The root has no name, and the map
keeps one slash for it (`trimPoint_of_not_isNamed`). A text has to repeat this slash, so a
plain path from the root is not taken for one on a drive or below the mount, although
validation accepts the point (`translate?_root`).
-/

namespace BuildMarkers

open Settings

namespace CygwinMap

variable {point : String} {mounts : List (String × Path)} {m : String × Path} {letter : Char}
  {s rest : List Char} {text : String}

/-- The point is not the root: there is more to it than slashes. -/
def IsNamed (point : String) : Prop := ∃ c ∈ point.toList, c ≠ '/'

/-- The text that leads on from the point, with a single slash between the two. -/
def textBelow (point : String) (rest : List Char) : String :=
  String.ofList (bare point ++ '/' :: rest)

/-- The path of the host for what is on a drive. -/
def drivePath (letter : Char) (rest : List Char) : Path :=
  .ofString (String.ofList (letter.toUpper :: ':' :: '/' :: rest))

/-- The path of the host for the names below the target of a mount. -/
def targetPath (target : Path) (rest : List Char) : Path :=
  target.join (.ofString ("/".intercalate (Text.segments (· = '/') (String.ofList rest))))

/-! ## The root -/

theorem bare_of_not_isNamed (h : ¬ IsNamed point) : bare point = [] := by
  have hslashes : ∀ c ∈ point.toList, decide (c = '/') = true := by
    intro c hc
    rw [decide_eq_true_eq]
    by_contra hne
    exact h ⟨c, hc, hne⟩
  exact Text.dropTrailing_append (s := []) hslashes (by simp)

/-- **One slash is kept for the root.** -/
theorem trimPoint_of_not_isNamed (h : ¬ IsNamed point) : trimPoint point = ['/'] := by
  have hbare : bare point = [] := bare_of_not_isNamed h
  rw [bare] at hbare
  rw [trimPoint, hbare]
  rfl

/-! ## Drives -/

theorem translate?_of_drive? {map : CygwinMap} (h : map.drive? text.toList = some (letter, rest)) :
    map.translate? text = some (drivePath letter rest) := by
  simp only [translate?, h]
  rfl

theorem after?_drives (tail : List Char) :
    after? (trimPoint point ++ ['/']) (trimPoint point ++ '/' :: letter :: tail) =
      some (letter :: tail) :=
  after?_eq_some_iff.2 (by simp)

/-- A letter behind the point of the drives names a drive. -/
theorem drive?_make_letter (hletter : letter.isAlpha = true) :
    (make (some point) mounts).drive? (trimPoint point ++ ['/', letter]) = some (letter, []) := by
  simp [drive?, make, after?_drives, hletter]

/-- And what is behind the next slash lies on this drive. -/
theorem drive?_make_cons (hletter : letter.isAlpha = true) (rest : List Char) :
    (make (some point) mounts).drive? (trimPoint point ++ '/' :: letter :: '/' :: rest) =
      some (letter, rest) := by
  simp [drive?, make, after?_drives, hletter]

/-! ## Mounts -/

/-- The slash in front of the names bounds none of them. -/
theorem targetPath_cons (target : Path) (rest : List Char) :
    targetPath target ('/' :: rest) = targetPath target rest := by
  have hslash : ∀ c ∈ ['/'], decide (c = '/') = true := by simp
  have hsegments := Text.filter_splitOnP_append_left hslash rest
  simp only [targetPath, Text.segments, String.toList_ofList]
  rw [← hsegments]
  rfl

theorem translate?_of_mount? {map : CygwinMap} {target : Path}
    (hdrive : map.drive? text.toList = none) (h : map.mount? text.toList = some (target, rest)) :
    map.translate? text = some (targetPath target rest) := by
  simp only [translate?, hdrive, h]
  rfl

/-- A single mount is read off what is at or below its point, and off nothing else. -/
theorem mount?_make_eq_some_iff {drives : Option String} {target : Path} :
    (make drives [m]).mount? s = some (target, rest) ↔
      Below (trimPoint m.1) s rest ∧ target = m.2 := by
  have hmounts : (make drives [m]).mounts = [⟨trimPoint m.1, m.2⟩] := List.mergeSort_singleton _
  rw [mount?, hmounts, List.findSome?_singleton, offer_eq_some_iff]

/-! ## All points -/

/-- **What lies below a point is translated if the point has a name.** The letter behind the
point of the drives names the drive of what follows, and the names behind the point of a
mount lead on from its target. The root has no name and is kept as a slash of its own, so
with it a text names a drive, or something below the mount, only where two slashes are in
front. -/
theorem translate?_textBelow (c : CygwinSettings) :
    (∀ point ∈ c.drives,
      (IsNamed point → ∀ letter, letter.isAlpha = true →
        c.map.translate? (textBelow point [letter]) = some (drivePath letter []) ∧
        ∀ rest, c.map.translate? (textBelow point (letter :: '/' :: rest)) =
          some (drivePath letter rest)) ∧
      (¬ IsNamed point → ∀ text : String, (c.map.drive? text.toList).isSome ↔
        ∃ letter rest, letter.isAlpha = true ∧ Below ['/', '/', letter] text.toList rest)) ∧
    ∀ m, c.drives = none → c.mounts = [m] →
      (IsNamed m.point → ∀ rest,
        c.map.translate? (textBelow m.point rest) = some (targetPath m.target rest)) ∧
      (¬ IsNamed m.point → ∀ text : String, c.map.recognizes text = true ↔
        ∃ rest, Below ['/'] text.toList rest) := by
  obtain ⟨drives, mounts⟩ := c
  constructor
  · rintro point hpoint
    obtain rfl : drives = some point := hpoint
    refine ⟨fun hname letter hletter => ?_, fun hroot text => ?_⟩
    · have hbare : trimPoint point = bare point := trimPoint_eq_bare hname
      constructor
      · refine translate?_of_drive? ?_
        rw [textBelow, String.toList_ofList, ← hbare]
        exact drive?_make_letter hletter
      · intro rest
        refine translate?_of_drive? ?_
        rw [textBelow, String.toList_ofList, ← hbare]
        exact drive?_make_cons hletter rest
    · rw [CygwinSettings.map, drive?_make_isSome_iff]
      simp [OnDrive, trimPoint_of_not_isNamed hroot]
  · rintro m hdrives hmounts
    obtain rfl : drives = none := hdrives
    obtain rfl : mounts = [m] := hmounts
    refine ⟨fun hname rest => ?_, fun hroot text => ?_⟩
    · have hbelow : Below (trimPoint m.point) (textBelow m.point rest).toList ('/' :: rest) :=
        ⟨by rw [textBelow, String.toList_ofList, trimPoint_eq_bare hname], by simp⟩
      rw [← targetPath_cons]
      exact translate?_of_mount? rfl (mount?_make_eq_some_iff.2 ⟨hbelow, rfl⟩)
    · have hmount : ((make none [(m.point, m.target)]).mount? text.toList).isSome ↔
          ∃ rest, Below ['/'] text.toList rest := by
        rw [Option.isSome_iff_exists, Prod.exists]
        simp [mount?_make_eq_some_iff, trimPoint_of_not_isNamed hroot]
      rw [← hmount]
      simp [CygwinSettings.map, recognizes, drive?, make]

/-- The drives below a point that is written with slashes behind it. -/
def cygdrive : CygwinSettings := ⟨some "/cygdrive//", []⟩

/-- A directory of headers, mounted. -/
def headers : CygwinSettings := ⟨none, [⟨"/usr/include/", .ofString "/opt/include"⟩]⟩

/-- The drives below the root. -/
def rootDrives : CygwinSettings := ⟨some "/", []⟩

/-- A mount at the root. -/
def rootMount : CygwinSettings := ⟨none, [⟨"/", .ofString "/opt/cygwin"⟩]⟩

/-- A drive and a header are found below points with a name, and neither is below the root. -/
theorem translate?_textBelow_headers :
    cygdrive.map.translate? "/cygdrive/c/work/x.c" = some (.ofString "C:/work/x.c") ∧
      headers.map.translate? "/usr/include/sys//stat.h" =
        some (.ofString "/opt/include/sys/stat.h") ∧
      (rootDrives.map.drive? "/c/work/x.c".toList).isSome = false ∧
      rootMount.map.recognizes "/usr/x.h" = false := by
  obtain ⟨hdrives, -⟩ := translate?_textBelow cygdrive
  obtain ⟨-, hmounts⟩ := translate?_textBelow headers
  obtain ⟨hroot, -⟩ := translate?_textBelow rootDrives
  obtain ⟨-, hrootMount⟩ := translate?_textBelow rootMount
  refine ⟨?_, ?_, ?_, ?_⟩
  · have htext : textBelow "/cygdrive//" ('c' :: '/' :: "work/x.c".toList) =
        "/cygdrive/c/work/x.c" := by decide
    have hpath : drivePath 'c' "work/x.c".toList = .ofString "C:/work/x.c" := by decide
    rw [← htext, ← hpath]
    exact ((hdrives _ rfl).1 ⟨'c', by simp, by decide⟩ 'c' (by decide)).2 _
  · have htext : textBelow "/usr/include/" "sys//stat.h".toList = "/usr/include/sys//stat.h" := by
      decide
    have hpath : targetPath (.ofString "/opt/include") "sys//stat.h".toList =
        .ofString "/opt/include/sys/stat.h" := by decide
    rw [← htext, ← hpath]
    exact (hmounts _ rfl rfl).1 ⟨'u', by simp, by decide⟩ _
  · have hslashes : ¬ IsNamed "/" := by simp [IsNamed]
    rw [Bool.eq_false_iff, ne_eq, (hroot _ rfl).2 hslashes]
    simp [Below]
  · have hslashes : ¬ IsNamed "/" := by simp [IsNamed]
    rw [Bool.eq_false_iff, ne_eq, (hrootMount _ rfl rfl).2 hslashes]
    simp [Below]

/-- **Validation accepts the root as a point**, but a path from the root is then neither on a
drive nor below the mount. -/
theorem translate?_root :
    validateCygwin rootDrives = .ok () ∧ rootDrives.map.translate? "/c/work/x.c" = none ∧
      validateCygwin rootMount = .ok () ∧ rootMount.map.translate? "/usr/x.h" = none := by
  refine ⟨by decide, by decide +kernel, by decide, by decide +kernel⟩

end CygwinMap

end BuildMarkers
