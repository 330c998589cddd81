import BuildMarkers.Proofs.Text.Runs
import BuildMarkers.Settings.Validation
import Mathlib.Algebra.Order.Ring.Nat
/-!
# The violations in their order

What is wrong with settings is listed project by project, what is wrong with a project
before what is wrong with its links, and the Cygwin settings last. An entry of a list is
judged by itself, its index and the entries before it (`inOrder`), and an empty one is no
duplicate. Validation reports this list and nothing else (`validate_violations`), although
the reports pass from one collector to the next: what a validator finishes with is taken
apart again where it is collected (`Collector.addResult_finish`), so nothing that is
several ever comes to stand among the errors.
-/

namespace BuildMarkers

namespace Settings

variable {α β : Type} {s : Settings} {vs ws : List Violation}

/-! ## The list -/

/-- What `f` gives for each entry of a list: from the entries before it, its index and
itself. -/
def inOrder (f : List α → ℕ → α → List β) (l : List α) : List β :=
  l.zipIdx.flatMap fun entry => f (l.take entry.2) entry.2 entry.1

/-- The path has to be absolute. -/
def pathViolations (field : String) (path : Path) : List Violation :=
  if path.isAbsolute then [] else [.relativePath field path.display]

/-- What is wrong with a link: its path is nothing but slashes, or that of a link before it
but for slashes at the ends; and its target is not absolute. -/
def linkViolations (field : String) (before : List LinkedResource) (index : ℕ)
    (link : LinkedResource) : List Violation :=
  (if link.path.toList.all (· = '/') then
    [.emptyText (indexed (field ++ ".links") index ++ ".path")]
    else if ∃ other ∈ before, linkKey other = linkKey link then
      [.duplicate (field ++ ".links") index]
    else []) ++
  pathViolations (indexed (field ++ ".links") index ++ ".target") link.target

/-- What is wrong with the name and the location of a project. -/
def ownViolations (before : List Project) (index : ℕ) (p : Project) : List Violation :=
  (if p.name.toList.all Text.isBlank then
    [.emptyText (indexed "workspace.projects" index ++ ".name")]
    else if ∃ other ∈ before, other.name = p.name then [.duplicate "workspace.projects" index]
    else []) ++
  pathViolations (indexed "workspace.projects" index ++ ".location") p.location

/-- What is wrong with a project and then with its links. -/
def projectViolations (before : List Project) (index : ℕ) (p : Project) : List Violation :=
  ownViolations before index p ++
    inOrder (linkViolations (indexed "workspace.projects" index)) p.links

/-- The point has to start with a slash. -/
def pointViolations (field point : String) : List Violation :=
  if point.toList.head? = some '/' then [] else [.invalidPoint field point]

/-- What is wrong with a mount. -/
def mountViolations (_ : List MountSetting) (index : ℕ) (m : MountSetting) : List Violation :=
  pointViolations (indexed "cygwin.mounts" index ++ ".prefix") m.point ++
    if m.target.bytes = [] then [.emptyText (indexed "cygwin.mounts" index ++ ".target")] else []

/-- What is wrong with the point of the drives and then with the mounts. -/
def cygwinViolations (c : CygwinSettings) : List Violation :=
  c.drives.elim [] (pointViolations "cygwin.cygdrive") ++ inOrder mountViolations c.mounts

/-- **Everything that is wrong with settings**, in their order. -/
def violations (s : Settings) : List Violation :=
  inOrder projectViolations s.projects ++ cygwinViolations s.cygwin

/-! ## A loop over entries -/

/-- **What holds after each entry holds after all of them**: the violations so far are
followed by those of the entry. The induction is on the entries to come. -/
theorem foldl_zipIdx_holds {σ : Type} (f : List α → ℕ → α → List Violation)
    (step : σ → α × ℕ → σ) (Holds : List α → List Violation → σ → Prop)
    (hstep : ∀ before vs c x, Holds before vs c →
      Holds (before ++ [x]) (vs ++ f before before.length x) (step c (x, before.length)))
    {c : σ} (hc : Holds [] vs c) (l : List α) :
    Holds l (vs ++ inOrder f l) (l.zipIdx.foldl step c) := by
  have hrest (before rest : List α) (ws : List Violation) (c : σ) (h : Holds before ws c) :
      Holds (before ++ rest)
        (ws ++ (rest.zipIdx before.length).flatMap fun entry =>
          f ((before ++ rest).take entry.2) entry.2 entry.1)
        ((rest.zipIdx before.length).foldl step c) := by
    induction rest generalizing before ws c with
    | nil => simpa using h
    | cons x rest ih =>
      have hnext := ih (before ++ [x]) _ _ (hstep before ws c x h)
      simpa [List.zipIdx_cons] using hnext
  exact hrest [] l vs c hc

/-! ## Collectors -/

namespace Collector

/-- A collector in which there are only these violations. -/
def ofViolations (vs : List Violation) : Collector := ⟨vs.map .single⟩

theorem add_single (vs : List Violation) (v : Violation) :
    (ofViolations vs).add (.single v) = ofViolations (vs ++ [v]) := by
  simp [ofViolations, add]

theorem addPath_eq (vs : List Violation) (field : String) (path : Path) :
    (ofViolations vs).addPath field path = ofViolations (vs ++ pathViolations field path) := by
  unfold addPath pathViolations
  split_ifs
  · rw [List.append_nil]
  · exact add_single ..

theorem addPoint_eq (vs : List Violation) (field point : String) :
    (ofViolations vs).addPoint field point = ofViolations (vs ++ pointViolations field point) := by
  unfold addPoint pointViolations
  split_ifs
  · rw [List.append_nil]
  · exact add_single ..

/-- **A report is taken apart where it is collected**: its violations come behind those
that are there already. -/
theorem addResult_finish (vs ws : List Violation) :
    (ofViolations vs).addResult (ofViolations ws).finish = ofViolations (vs ++ ws) := by
  rcases ws with - | ⟨w, - | ⟨x, ws⟩⟩
  · simp [ofViolations, finish, addResult]
  · exact add_single vs w
  · simp [ofViolations, finish, addResult]

/-- The keys of the entries that were passed, but for empty ones. -/
def Seen (isEmpty : β → Bool) (key : α → β) (before : List α) (seen : List β) : Prop :=
  ∀ k, k ∈ seen ↔ isEmpty k = false ∧ ∃ other ∈ before, key other = k

theorem seen_nil (isEmpty : β → Bool) (key : α → β) : Seen isEmpty key [] [] := by
  simp [Seen]

/-- An entry with an empty key, or with one that was seen, adds nothing to the keys. -/
theorem Seen.concat_of_eq {isEmpty : β → Bool} {key : α → β} {before : List α} {seen : List β}
    (h : Seen isEmpty key before seen) {x : α} (hx : isEmpty (key x) = false → key x ∈ seen) :
    Seen isEmpty key (before ++ [x]) seen := by
  intro k
  rw [h k, and_congr_right_iff]
  intro hk
  simp only [List.mem_append, List.mem_singleton, or_and_right, exists_or, exists_eq_left]
  refine ⟨.inl, fun hor => hor.elim id ?_⟩
  rintro rfl
  exact ((h _).1 (hx hk)).2

theorem Seen.concat {isEmpty : β → Bool} {key : α → β} {before : List α} {seen : List β}
    (h : Seen isEmpty key before seen) {x : α} (hx : isEmpty (key x) = false) :
    Seen isEmpty key (before ++ [x]) (key x :: seen) := by
  intro k
  rw [List.mem_cons, h k]
  simp only [List.mem_append, List.mem_singleton, or_and_right, exists_or, exists_eq_left]
  constructor
  · rintro (rfl | ⟨hk, hother⟩)
    · exact ⟨hx, .inr rfl⟩
    · exact ⟨hk, .inl hother⟩
  · rintro ⟨hk, hother | rfl⟩
    · exact .inr ⟨hk, hother⟩
    · exact .inl rfl

/-- **A key is judged by itself and by the keys before it.** -/
theorem addKey_eq [DecidableEq β] {isEmpty : β → Bool} {key : α → β} {before : List α}
    {seen : List β} (h : Seen isEmpty key before seen) (vs : List Violation)
    (emptyField listField : String) (x : α) :
    ∃ seen', (ofViolations vs).addKey isEmpty emptyField listField seen before.length (key x) =
        (ofViolations (vs ++ if isEmpty (key x) then [.emptyText emptyField]
          else if ∃ other ∈ before, key other = key x then [.duplicate listField before.length]
          else []), seen') ∧
      Seen isEmpty key (before ++ [x]) seen' := by
  unfold addKey
  by_cases hempty : isEmpty (key x) = true
  · rw [if_pos hempty, if_pos hempty, add_single]
    exact ⟨seen, rfl, h.concat_of_eq fun hx => by simp [hempty] at hx⟩
  · have hmem : key x ∈ seen ↔ ∃ other ∈ before, key other = key x := by
      rw [h, Bool.eq_false_iff, and_iff_right hempty]
    rw [if_neg hempty, if_neg hempty]
    by_cases hseen : key x ∈ seen
    · rw [if_pos hseen, if_pos (hmem.1 hseen), add_single]
      exact ⟨seen, rfl, h.concat_of_eq fun _ => hseen⟩
    · rw [if_neg hseen, if_neg fun hother => hseen (hmem.2 hother), List.append_nil]
      exact ⟨key x :: seen, rfl, h.concat (Bool.eq_false_iff.2 hempty)⟩

end Collector

/-! ## The validators -/

open Collector

theorem isEmpty_linkKey (link : LinkedResource) :
    (linkKey link).isEmpty = link.path.toList.all (· = '/') := by
  rw [Bool.eq_iff_iff, List.isEmpty_iff, linkKey, Text.stripBoth_eq_nil_iff, List.all_eq_true]

theorem validateLinks_eq (field : String) (links : List LinkedResource) :
    validateLinks field links = (ofViolations (inOrder (linkViolations field) links)).finish := by
  have hstart : Collector.new = ofViolations [] ∧ Seen List.isEmpty linkKey [] [] :=
    ⟨rfl, seen_nil _ _⟩
  have hloop := foldl_zipIdx_holds (linkViolations field) (checkLink field)
    (fun before vs c => c.1 = ofViolations vs ∧ Seen List.isEmpty linkKey before c.2)
    ?_ (c := (.new, [])) hstart links
  · rw [validateLinks, hloop.1, List.nil_append]
  · rintro before vs ⟨c, seen⟩ link ⟨rfl, hseen⟩
    obtain ⟨seen', hkey, hseen'⟩ := addKey_eq hseen vs
      (indexed (field ++ ".links") before.length ++ ".path") (field ++ ".links") link
    simp only [checkLink, hkey, addPath_eq]
    refine ⟨?_, hseen'⟩
    simp only [linkViolations, isEmpty_linkKey, List.append_assoc]

theorem validateProjects_eq (ps : List Project) :
    validateProjects ps = (ofViolations (inOrder projectViolations ps)).finish := by
  have hstart : Collector.new = ofViolations [] ∧ Seen Text.isBlankText Project.name [] [] :=
    ⟨rfl, seen_nil _ _⟩
  have hloop := foldl_zipIdx_holds projectViolations checkProject
    (fun before vs c => c.1 = ofViolations vs ∧ Seen Text.isBlankText Project.name before c.2)
    ?_ (c := (.new, [])) hstart ps
  · rw [validateProjects, hloop.1, List.nil_append]
  · rintro before vs ⟨c, seen⟩ p ⟨rfl, hseen⟩
    obtain ⟨seen', hkey, hseen'⟩ := addKey_eq hseen vs
      (indexed "workspace.projects" before.length ++ ".name") "workspace.projects" p
    simp only [checkProject, hkey, addPath_eq, validateLinks_eq, addResult_finish]
    refine ⟨?_, hseen'⟩
    simp only [projectViolations, ownViolations, List.append_assoc]
    rfl

theorem validateCygwin_eq (c : CygwinSettings) :
    validateCygwin c = (ofViolations (cygwinViolations c)).finish := by
  have hdrives : c.drives.elim Collector.new (Collector.new.addPoint "cygwin.cygdrive") =
      ofViolations (c.drives.elim [] (pointViolations "cygwin.cygdrive")) := by
    cases c.drives with
    | none => rfl
    | some point => exact addPoint_eq [] "cygwin.cygdrive" point
  have hloop := foldl_zipIdx_holds mountViolations checkMount
    (fun _ vs c => c = ofViolations vs) ?_ hdrives c.mounts
  · rw [validateCygwin, cygwinViolations, ← hloop]
  · rintro before vs _ m rfl
    simp only [checkMount, addPoint_eq, mountViolations, Path.isEmpty, List.isEmpty_iff]
    split_ifs
    · rw [add_single, List.append_assoc]
    · rw [List.append_nil]

/-- **The report is on the violations**, whatever they went through. -/
theorem validate_eq (s : Settings) : s.validate = (ofViolations s.violations).finish := by
  have hnew : Collector.new = ofViolations [] := rfl
  rw [validate, validateProjects_eq, validateCygwin_eq, hnew, addResult_finish, addResult_finish,
    List.nil_append, violations]

/-! ## Reports -/

theorem finish_eq_ok_iff : (ofViolations vs).finish = .ok () ↔ vs = [] := by
  rcases vs with - | ⟨v, - | ⟨w, vs⟩⟩ <;> simp [ofViolations, finish]

theorem finish_eq_single_iff {v : Violation} :
    (ofViolations vs).finish = .error (.single v) ↔ vs = [v] := by
  rcases vs with - | ⟨w, - | ⟨x, vs⟩⟩ <;> simp [ofViolations, finish]

theorem finish_eq_multiple_iff {errors : List Invalid} :
    (ofViolations vs).finish = .error (.multiple errors) ↔
      errors = vs.map .single ∧ 2 ≤ vs.length := by
  rcases vs with - | ⟨w, - | ⟨x, vs⟩⟩ <;> simp [ofViolations, finish, eq_comm]

theorem validate_eq_ok_iff : s.validate = .ok () ↔ s.violations = [] := by
  rw [validate_eq, finish_eq_ok_iff]

/-- **Validation reports exactly what is wrong, flat and in order**: nothing where nothing is
wrong, a single violation as it is, and several as one error, in which none stands for
several again. -/
theorem validate_violations (s : Settings) :
    (s.validate = .ok () ↔ s.violations = []) ∧
    (∀ v, s.validate = .error (.single v) ↔ s.violations = [v]) ∧
    (∀ errors, s.validate = .error (.multiple errors) ↔
      errors = s.violations.map .single ∧ 2 ≤ s.violations.length) ∧
    (∀ errors, s.validate = .error (.multiple errors) →
      ∀ error ∈ errors, ∀ inner, error ≠ .multiple inner) := by
  rw [validate_eq]
  refine ⟨finish_eq_ok_iff, fun v => finish_eq_single_iff, fun errors => finish_eq_multiple_iff, ?_⟩
  intro errors herrors error hmem inner
  obtain ⟨rfl, -⟩ := finish_eq_multiple_iff.1 herrors
  obtain ⟨v, -, rfl⟩ := List.mem_map.1 hmem
  exact Invalid.noConfusion

end Settings

end BuildMarkers
