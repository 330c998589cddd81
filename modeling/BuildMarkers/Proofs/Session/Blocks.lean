import BuildMarkers.Proofs.Disk.Standing
import BuildMarkers.Proofs.Session.Stream
import BuildMarkers.Workspace.Build
import Mathlib.Data.List.Infix
/-!
# Blocks of a build log

A block of lines in which every directory that is entered is left again has no
effect on the lines behind it. While it lasts, the trail is one that starts in the
current directory and stands on top of the trail in front of the block
(`Trail.atop`), and a balanced block never reaches below the top (`foldl_atop`).
So the trail behind the block is the one in front of it, the markers of the block
are those of a log of its own, and the markers of the lines around it are what they
are without the block (`markers_insert_block`).
-/

namespace BuildMarkers

namespace Trail

variable {t above : Trail}

/-- The directories of one trail entered on top of another. -/
def atop (above t : Trail) : Trail := { t with entered := above.entered ++ t.entered }

/-- A trail that starts where the other one is decides what is current. -/
theorem current_atop (h : above.base = t.current) : (above.atop t).current = above.current := by
  obtain ⟨base, entered⟩ := above
  cases entered with
  | nil => exact h.symm
  | cons r entered => rfl

theorem enter_atop (h : above.base = t.current) (directory : Path) :
    (above.atop t).enter directory = (above.enter directory).atop t := by
  rw [enter, enter, current_atop h]
  rfl

/-- Leaving stays on top if something has been entered there. -/
theorem leave_atop (h : above.depth ≠ 0) : (above.atop t).leave = above.leave.atop t := by
  obtain ⟨base, entered⟩ := above
  cases entered with
  | nil => exact absurd rfl h
  | cons r entered => rfl

/-- Every directory of the trail is normalized. -/
structure IsNormal (t : Trail) : Prop where
  base : t.base.normalize = t.base
  entered : ∀ r ∈ t.entered, r.normalize = r

theorem isNormal_start (base : Route) : (start base).IsNormal :=
  ⟨Route.normalize_normalize base, fun _ hr => absurd hr List.not_mem_nil⟩

theorem IsNormal.follow (h : t.IsNormal) (change : DirectoryChange) :
    (t.follow change).IsNormal := by
  cases change with
  | enter directory =>
    exact ⟨h.base, List.forall_mem_cons.2 ⟨Route.normalize_normalize _, h.entered⟩⟩
  | leave directory => exact ⟨h.base, fun r hr => h.entered r (List.mem_of_mem_tail hr)⟩

theorem IsNormal.current (h : t.IsNormal) : t.current.normalize = t.current := by
  obtain ⟨base, entered⟩ := t
  cases entered with
  | nil => exact h.base
  | cons r entered => exact h.entered r List.mem_cons_self

/-- A trail that starts where another one is has nothing entered on top of it. -/
theorem IsNormal.start_current (h : t.IsNormal) : start t.current = ⟨t.current, []⟩ := by
  rw [start, h.current]

end Trail

namespace BuildLog

variable {lines : List (List UInt8)}

/-- The bytes are one complete line, which ends with the only line feed in it. -/
def IsLine (line : List UInt8) : Prop := ∃ piece, lineFeed ∉ piece ∧ line = piece ++ [lineFeed]

instance (line : List UInt8) : Decidable (IsLine line) :=
  decidable_of_iff (line.getLast? = some lineFeed ∧ lineFeed ∉ line.dropLast) <| by
    constructor
    · rintro ⟨hlast, hpiece⟩
      exact ⟨line.dropLast, hpiece, (List.dropLast_append_getLast? lineFeed hlast).symm⟩
    · rintro ⟨piece, hpiece, rfl⟩
      simpa using hpiece

/-- Complete lines that are written one after the other are read as they are. -/
theorem linesOf_flatten (h : ∀ line ∈ lines, IsLine line) : linesOf lines.flatten = lines := by
  have hcut : Cut lines.flatten lines [] := ⟨List.append_nil _, h, List.not_mem_nil⟩
  obtain ⟨hlines, hrest⟩ := cut_iff.1 hcut
  rw [linesOf, ← hlines, ← hrest, if_pos rfl, List.append_nil]

end BuildLog

namespace MarkerStream

variable {m : Matching} {trail trail' above t : Trail} {line : List UInt8}
  {lines before block after : List (List UInt8)} {directory : Route}

/-! ## Directories entered and left -/

/-- The line enters a directory. -/
def isEntering (line : List UInt8) : Bool :=
  match lineOf line with
  | .directory (.enter _) => true
  | _ => false

/-- The line leaves a directory. -/
def isLeaving (line : List UInt8) : Bool :=
  match lineOf line with
  | .directory (.leave _) => true
  | _ => false

/-- At no point of the lines more directories have been left than entered, and in
all of them as many. -/
structure IsBalanced (lines : List (List UInt8)) : Prop where
  leaving_le : ∀ front, front <+: lines → front.countP isLeaving ≤ front.countP isEntering
  leaving_eq : lines.countP isLeaving = lines.countP isEntering

instance (lines : List (List UInt8)) : Decidable (IsBalanced lines) :=
  decidable_of_iff ((∀ front ∈ lines.inits, front.countP isLeaving ≤ front.countP isEntering) ∧
      lines.countP isLeaving = lines.countP isEntering)
    ⟨fun ⟨hle, heq⟩ => ⟨fun front hfront => hle front ((List.mem_inits _ _).2 hfront), heq⟩,
      fun h => ⟨fun front hfront => h.leaving_le front ((List.mem_inits _ _).1 hfront),
        h.leaving_eq⟩⟩

/-- Lines without any directory line are balanced. -/
theorem isBalanced_of_forall (h : ∀ line ∈ lines, ∀ change, lineOf line ≠ .directory change) :
    IsBalanced lines := by
  have hleaving (line) (hline : line ∈ lines) : isLeaving line = false := by
    unfold isLeaving
    split
    · next heq => exact absurd heq (h line hline _)
    · rfl
  have hnone (front) (hfront : front <+: lines) : front.countP isLeaving = 0 :=
    List.countP_eq_zero.2 fun line hline => by simp [hleaving line (hfront.subset hline)]
  have hentering : lines.countP isEntering = 0 := List.countP_eq_zero.2 fun line hline => by
    unfold isEntering
    split
    · next heq => exact absurd heq (h line hline _)
    · simp
  exact ⟨fun front hfront => (hnone front hfront).symm ▸ Nat.zero_le _,
    (hnone lines List.prefix_rfl).trans hentering.symm⟩

/-! ## The trail of a block -/

/-- A line that does not leave more than has been entered changes what is on top,
and nothing below. -/
theorem trailBehind_atop (hbase : above.base = t.current)
    (h : [line].countP isLeaving ≤ above.depth + [line].countP isEntering) :
    trailBehind (above.atop t) line = (trailBehind above line).atop t ∧
      (trailBehind above line).base = above.base ∧
      (trailBehind above line).depth + [line].countP isLeaving =
        above.depth + [line].countP isEntering := by
  cases hline : lineOf line with
  | diagnostic diagnostic => simp [trailBehind, isLeaving, isEntering, hline]
  | other => simp [trailBehind, isLeaving, isEntering, hline]
  | directory change =>
    cases change with
    | enter directory =>
      have hbehind (trail : Trail) : trailBehind trail line =
          trail.enter (.ofString directory) := by
        rw [trailBehind, hline]
        rfl
      rw [hbehind, hbehind, Trail.enter_atop hbase]
      exact ⟨rfl, rfl, by simp [isLeaving, isEntering, hline, Trail.enter, Trail.depth]⟩
    | leave directory =>
      have hbehind (trail : Trail) : trailBehind trail line = trail.leave := by
        rw [trailBehind, hline]
        rfl
      have hleaving : [line].countP isLeaving = 1 := by simp [isLeaving, hline]
      have hentering : [line].countP isEntering = 0 := by simp [isEntering, hline]
      rw [hleaving, hentering] at h ⊢
      rw [hbehind, hbehind, Trail.leave_atop (by omega)]
      refine ⟨rfl, rfl, ?_⟩
      simp only [Trail.depth, Trail.leave, List.length_tail] at h ⊢
      omega

/-- **Lines that never leave more than has been entered** change what is on top,
and nothing below. -/
theorem foldl_atop (above t : Trail) (hbase : above.base = t.current)
    (h : ∀ front, front <+: lines →
      front.countP isLeaving ≤ above.depth + front.countP isEntering) :
    lines.foldl trailBehind (above.atop t) = (lines.foldl trailBehind above).atop t ∧
      (lines.foldl trailBehind above).base = above.base ∧
      (lines.foldl trailBehind above).depth + lines.countP isLeaving =
        above.depth + lines.countP isEntering := by
  induction lines generalizing above with
  | nil => exact ⟨rfl, rfl, rfl⟩
  | cons line lines ih =>
    have hcons (p : List UInt8 → Bool) (front : List (List UInt8)) :
        ([line] ++ front).countP p = [line].countP p + front.countP p := List.countP_append
    obtain ⟨hnext, hbase', hdepth⟩ :=
      trailBehind_atop hbase (h [line] (List.cons_prefix_cons.2 ⟨rfl, List.nil_prefix⟩))
    obtain ⟨hrest, hbase'', hdepth'⟩ := ih _ (hbase'.trans hbase) fun front hfront => by
      have := h (line :: front) (List.cons_prefix_cons.2 ⟨rfl, hfront⟩)
      rw [← List.singleton_append, hcons isLeaving, hcons isEntering] at this
      omega
    rw [List.foldl_cons, List.foldl_cons, hnext, ← List.singleton_append, hcons isLeaving,
      hcons isEntering]
    exact ⟨hrest, hbase''.trans hbase', by omega⟩

/-- **Behind a balanced block the trail is what it was in front of it.** -/
theorem IsBalanced.foldl_eq (h : IsBalanced lines) (trail : Trail) :
    lines.foldl trailBehind trail = trail := by
  obtain ⟨htop, -, hdepth⟩ := foldl_atop ⟨trail.current, []⟩ trail rfl
    fun front hfront => Nat.le_add_left_of_le (h.leaving_le front hfront)
  have hentered : (lines.foldl trailBehind ⟨trail.current, []⟩).entered = [] := by
    rw [h.leaving_eq] at hdepth
    exact List.length_eq_zero_iff.1 (Nat.add_right_cancel hdepth)
  have : lines.foldl trailBehind trail = _ := htop
  rw [this, Trail.atop, hentered, List.nil_append]

/-! ## The markers of a block -/

/-- A marker shows nothing of the trail but its current directory. -/
theorem markerOf?_congr (h : trail.current = trail'.current) :
    markerOf? m trail line = markerOf? m trail' line := by
  simp only [markerOf?, Matching.marker, h]

theorem markersOf_congr (h : ∀ front, front <+: lines →
      (front.foldl trailBehind trail).current = (front.foldl trailBehind trail').current) :
    markersOf m trail lines = markersOf m trail' lines :=
  List.filterMap_congr fun x _ => markerOf?_congr (h _ (List.take_prefix x.2 lines))

theorem markersOf_append : markersOf m trail (before ++ after) =
    markersOf m trail before ++ markersOf m (before.foldl trailBehind trail) after := by
  induction before generalizing trail with
  | nil => rfl
  | cons line before ih =>
    rw [List.cons_append, markersOf_cons, markersOf_cons, ih, List.append_assoc, List.foldl_cons]

theorem isNormal_foldl (htrail : trail.IsNormal) (lines : List (List UInt8)) :
    (lines.foldl trailBehind trail).IsNormal := by
  induction lines generalizing trail with
  | nil => exact htrail
  | cons line lines ih =>
    refine ih ?_
    unfold trailBehind
    split
    · exact htrail.follow _
    · exact htrail

/-- **A balanced block gives the markers of a log of its own** that starts in the
current directory. -/
theorem IsBalanced.markersOf_eq (h : IsBalanced lines) (htrail : trail.IsNormal) :
    markersOf m trail lines = markersOf m (.start trail.current) lines := by
  refine markersOf_congr fun front hfront => ?_
  obtain ⟨htop, hbase, -⟩ := foldl_atop ⟨trail.current, []⟩ trail rfl
    fun first hfirst => Nat.le_add_left_of_le (h.leaving_le first (hfirst.trans hfront))
  have : front.foldl trailBehind trail = _ := htop
  rw [this, Trail.current_atop hbase, htrail.start_current]

/-- The markers of a build log that is read to its end. -/
def markersFrom (m : Matching) (directory : Route) (bytes : List UInt8) : List Marker :=
  ((start (.ofFile { content := bytes }) directory).drain m none).markers

theorem markersFrom_flatten (h : ∀ line ∈ lines, BuildLog.IsLine line) :
    markersFrom m directory lines.flatten = markersOf m (.start directory) lines := by
  rw [markersFrom, (drain_eq m none _).1]
  change markersOf m (.start directory) (BuildLog.linesOf lines.flatten) = _
  rw [BuildLog.linesOf_flatten h]

/-- **A block that is put into a log adds its own markers and changes no other**, if
it has no directory lines or balanced ones. Its markers are those of a log that
starts where the make was. -/
theorem markers_insert_block (m : Matching) (directory : Route)
    (hlines : ∀ line ∈ before ++ block ++ after, BuildLog.IsLine line)
    (hblock : (∀ line ∈ block, ∀ change, lineOf line ≠ .directory change) ∨ IsBalanced block) :
    let here := (before.foldl trailBehind (.start directory)).current
    ∃ rest,
      markersFrom m directory (before ++ after).flatten =
        markersFrom m directory before.flatten ++ rest ∧
      markersFrom m directory (before ++ block ++ after).flatten =
        markersFrom m directory before.flatten ++ markersFrom m here block.flatten ++ rest := by
  intro here
  have hbalanced : IsBalanced block := hblock.elim isBalanced_of_forall id
  have htrail : (before.foldl trailBehind (.start directory)).IsNormal :=
    isNormal_foldl (Trail.isNormal_start directory) before
  obtain ⟨hfront, hafter⟩ := List.forall_mem_append.1 hlines
  obtain ⟨hbefore, hinner⟩ := List.forall_mem_append.1 hfront
  refine ⟨markersOf m (before.foldl trailBehind (.start directory)) after, ?_, ?_⟩
  · rw [markersFrom_flatten (List.forall_mem_append.2 ⟨hbefore, hafter⟩),
      markersFrom_flatten hbefore, markersOf_append]
  · rw [markersFrom_flatten hlines, markersFrom_flatten hbefore, markersFrom_flatten hinner,
      markersOf_append,
      markersOf_append, hbalanced.markersOf_eq htrail, List.foldl_append, hbalanced.foldl_eq]

/-- A project with two files of one name. -/
def twins : Matching where
  resolver := ⟨.sensitive, ⟨none, []⟩⟩
  tree := Tree.empty.applyAll [
    .project "P" (.ofString "/ws"),
    .resource "P" ["lib", "a.c"] .file .none,
    .resource "P" ["app", "a.c"] .file .none]
  disk := .bare
  project := "P"

/-- Lines from inside of `lib`. -/
def linesBefore : List (List UInt8) := [
  Text.encode "make[1]: Entering directory 'lib'\n",
  Text.encode "a.c:1: warning: first\n"]

/-- A block that goes over to `app` and is left by another name. -/
def blockOfApp : List (List UInt8) := [
  Text.encode "make[2]: Entering directory '../app'\n",
  Text.encode "a.c:2: error: second\n",
  Text.encode "make[2]: Leaving directory '/ws/app'\n"]

/-- Lines from inside of `lib` again. -/
def linesAfter : List (List UInt8) := [Text.encode "a.c:3: note: third\n"]

/-- The marker of the block is on the file in `app`, and it comes between two
markers that are on the file in `lib` with the block and without it. -/
theorem markers_insert_block_twins :
    (∀ line ∈ linesBefore ++ blockOfApp ++ linesAfter, BuildLog.IsLine line) ∧
      IsBalanced blockOfApp ∧
      ∃ rest,
        markersFrom twins (Path.ofString "/ws").route (linesBefore ++ linesAfter).flatten =
          markersFrom twins (Path.ofString "/ws").route linesBefore.flatten ++ rest ∧
        markersFrom twins (Path.ofString "/ws").route
          (linesBefore ++ blockOfApp ++ linesAfter).flatten =
          markersFrom twins (Path.ofString "/ws").route linesBefore.flatten ++
            markersFrom twins (Path.ofString "/ws/lib").route blockOfApp.flatten ++ rest ∧
        (markersFrom twins (Path.ofString "/ws/lib").route blockOfApp.flatten).map (·.target) =
          [.file "/P/app/a.c"] := by
  have hlines : ∀ line ∈ linesBefore ++ blockOfApp ++ linesAfter, BuildLog.IsLine line := by
    decide +kernel
  have hblock : IsBalanced blockOfApp := by decide +kernel
  have hhere : (linesBefore.foldl trailBehind (.start (Path.ofString "/ws").route)).current =
      (Path.ofString "/ws/lib").route := by decide +kernel
  obtain ⟨rest, hwithout, hwith⟩ :=
    markers_insert_block twins (Path.ofString "/ws").route hlines (.inr hblock)
  rw [hhere] at hwith
  refine ⟨hlines, hblock, rest, hwithout, hwith, ?_⟩
  rw [markersFrom_flatten (by decide +kernel)]
  decide +kernel

end MarkerStream

end BuildMarkers
