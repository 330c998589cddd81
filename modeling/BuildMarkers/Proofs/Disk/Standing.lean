import BuildMarkers.Disk.Basic
import BuildMarkers.Proofs.Path.Plain
import Mathlib.Data.List.Nodup
/-!
# Places that stand

A place stands on a disk if it is reached through open directories alone and is
no symbolic link itself. These are the places that a path can lead to
(`stands_of_canonicalize`), and each of them is where its own plain spelling
leads (`canonicalize_toPath`), as long as the disk bears no name that a file
system refuses (`IsSound`). Both hold whatever limit there is on the number of
links: the spelling of a place that stands has none on its way. What is in a
closed directory does not stand, and its spelling is refused
(`canonicalize_of_isClosed`). A directory that can be read stands
(`stands_of_mem_listing`), though it may be closed.
-/

namespace BuildMarkers

/-- What a chain of two steps comes to. -/
theorem bind_eq_ok_iff {ε α β : Type} {x : Except ε α} {f : α → Except ε β} {b : β} :
    x >>= f = .ok b ↔ ∃ a, x = .ok a ∧ f a = .ok b := by
  cases x with
  | error e =>
    constructor
    · intro h
      cases h
    · rintro ⟨_, h, _⟩
      cases h
  | ok a =>
    constructor
    · exact fun h => ⟨a, rfl, h⟩
    · rintro ⟨_, h, hb⟩
      cases h
      exact hb

theorem mapError_eq_ok_iff {ε ε' α : Type} {f : ε → ε'} {x : Except ε α} {a : α} :
    x.mapError f = .ok a ↔ x = .ok a := by
  cases x <;> simp [Except.mapError]

/-- A name that an entry of a directory can bear. -/
structure FileName.IsEntry (n : FileName) : Prop extends n.IsPlain where
  nul_notMem : 0 ∉ n.bytes
  length_le : n.bytes.length ≤ Disk.nameLimit

instance (n : FileName) : Decidable n.IsEntry :=
  decidable_of_iff (n.IsPlain ∧ 0 ∉ n.bytes ∧ n.bytes.length ≤ Disk.nameLimit)
    ⟨fun ⟨hplain, hnul, hlength⟩ => ⟨hplain, hnul, hlength⟩,
      fun h => ⟨h.toIsPlain, h.nul_notMem, h.length_le⟩⟩

namespace Disk

/-- Every name on the disk is one that a file system can bear. -/
def IsSound (d : Disk) : Prop := ∀ e ∈ d.entries, ∀ n ∈ e.1, n.IsEntry

instance (d : Disk) : Decidable d.IsSound :=
  inferInstanceAs (Decidable (∀ e ∈ d.entries, ∀ n ∈ e.1, n.IsEntry))

/-- A disk with nothing on it, and with no limit on links. -/
def bare : Disk := { entries := [], workingDirectory := [], linkLimit := none }

/-- A disk with a directory that holds a file and a link to the directory
itself, and with no limit on links. -/
def looped : Disk where
  entries := [
    ([.ofString "ws"], .directory),
    ([.ofString "ws", .ofString "main.c"], .file { content := [] }),
    ([.ofString "ws", .ofString "loop"], .link (.ofString "."))]
  workingDirectory := []
  linkLimit := none

/-- The place is reached through open directories alone, and no symbolic link is
there. -/
inductive Stands (d : Disk) : Place → Prop
  | root : Stands d []
  | child {p : Place} {n : FileName} {node : Node} : Stands d p → d.node? p = some .directory →
      d.isClosed p = false → d.node? (p ++ [n]) = some node → (∀ target, node ≠ .link target) →
      Stands d (p ++ [n])

variable {d : Disk} {p q : Place} {n : FileName} {names : List FileName}

@[simp] theorem node?_root : d.node? [] = some .directory := rfl

theorem node?_concat : d.node? (p ++ [n]) = d.entries.lookup (p ++ [n]) := by
  simp [node?]

@[simp] theorem isDirectory_iff : d.isDirectory p = true ↔ d.node? p = some .directory := by
  simp [isDirectory]

theorem isEntry_of_node? (hd : d.IsSound) (h : (d.node? p).isSome) (hn : n ∈ p) : n.IsEntry := by
  have hp : p.isEmpty = false := by
    cases p with
    | nil => cases hn
    | cons m p => rfl
  rw [node?, if_neg (by simp [hp]), List.lookup_isSome_iff] at h
  obtain ⟨e, he, hep⟩ := h
  rw [eq_of_beq hep] at hn
  exact hd e he n hn

/-! ## Where a place that stands lies -/

namespace Stands

theorem node?_isSome (h : d.Stands p) : (d.node? p).isSome := by
  cases h with
  | root => rfl
  | child _ _ _ h _ => simp [h]

theorem dropLast (h : d.Stands p) : d.Stands p.dropLast := by
  cases h with
  | root => exact .root
  | child h _ _ _ _ => simpa using h

theorem isEntry (h : d.Stands p) (hd : d.IsSound) : ∀ n ∈ p, n.IsEntry :=
  fun _ hn => isEntry_of_node? hd h.node?_isSome hn

theorem isPlain (h : d.Stands p) (hd : d.IsSound) : ∀ n ∈ p, n.IsPlain :=
  fun n hn => (h.isEntry hd n hn).toIsPlain

end Stands

/-! ## Walking by names -/

/-- The walk from the root along names. -/
def along (d : Disk) (names : List FileName) : Except Fault Walk :=
  names.foldlM (fun w n => d.step (d.follow d.linkCount) w n.bytes) (.setOut [])

theorem along_concat : d.along (names ++ [n]) =
    d.along names >>= fun w => d.step (d.follow d.linkCount) w n.bytes := by
  simp [along]

/-- What a step from a directory can be: one that stays, one up, one to an entry
that is no link, or one along a link. Only the first two leave a closed one. -/
inductive Moves (d : Disk) (follow : Walk → Path → Except Fault Walk) (w : Walk) :
    List UInt8 → Walk → Prop
  | stay {piece : List UInt8} : Path.isIdle piece = true → Moves d follow w piece w
  | up : Moves d follow w [dot, dot] { w with place := w.place.dropLast }
  | enter {n : FileName} {node : Node} : Path.isIdle n.bytes = false → n.bytes ≠ [dot, dot] →
      d.isClosed w.place = false → n.bytes.length ≤ nameLimit →
      d.node? (w.place ++ [n]) = some node → (∀ target, node ≠ .link target) →
      Moves d follow w n.bytes { w with place := w.place ++ [n] }
  | link {n : FileName} {target : Path} {w' : Walk} : Path.isIdle n.bytes = false →
      n.bytes ≠ [dot, dot] → d.isClosed w.place = false → n.bytes.length ≤ nameLimit →
      d.node? (w.place ++ [n]) = some (.link target) → d.linkLimit.any (· ≤ w.links) = false →
      follow { w with links := w.links + 1 } target = .ok w' → Moves d follow w n.bytes w'

/-- **A step succeeds in exactly these ways.** -/
theorem step_eq_ok_iff {follow : Walk → Path → Except Fault Walk} {w w' : Walk}
    {piece : List UInt8} :
    d.step follow w piece = .ok w' ↔
      d.node? w.place = some .directory ∧ Moves d follow w piece w' := by
  constructor
  · intro h
    unfold step at h
    cases hdir : d.node? w.place with
    | none => simp [hdir] at h
    | some node =>
      cases node with
      | file data => simp [hdir] at h
      | link target => simp [hdir] at h
      | directory =>
        refine ⟨rfl, ?_⟩
        simp only [hdir] at h
        by_cases hidle : Path.isIdle piece = true
        · rw [if_pos hidle] at h
          cases h
          exact .stay hidle
        by_cases hdots : piece = [dot, dot]
        · rw [if_neg hidle, if_pos hdots] at h
          cases h
          exact hdots ▸ .up
        -- what is left is an entry, and what is there decides
        rw [if_neg hidle, if_neg hdots] at h
        by_cases hclosed : d.isClosed w.place = true
        · rw [if_pos hclosed] at h
          cases h
        by_cases hlength : nameLimit < piece.length
        · rw [if_neg hclosed, if_pos hlength] at h
          cases h
        rw [if_neg hclosed, if_neg hlength] at h
        have hidle : Path.isIdle piece = false := by simpa using hidle
        have hclosed : d.isClosed w.place = false := by simpa using hclosed
        have hlength : piece.length ≤ nameLimit := by omega
        cases hnode : d.node? (w.place ++ [⟨piece⟩]) with
        | none => simp [hnode] at h
        | some node =>
          cases node with
          | directory =>
            simp only [hnode] at h
            cases h
            exact .enter (n := ⟨piece⟩) hidle hdots hclosed hlength hnode (by simp)
          | file data =>
            simp only [hnode] at h
            cases h
            exact .enter (n := ⟨piece⟩) hidle hdots hclosed hlength hnode (by simp)
          | link target =>
            simp only [hnode] at h
            split_ifs at h with hlimit
            exact .link (n := ⟨piece⟩) hidle hdots hclosed hlength hnode (by simpa using hlimit) h
  · rintro ⟨hdir, hmoves⟩
    unfold step
    simp only [hdir]
    cases hmoves with
    | stay hidle => rw [if_pos hidle]
    | up => rfl
    | @enter n node hidle hdots hclosed hlength hnode hlink =>
      rw [if_neg (by simp [hidle]), if_neg hdots, if_neg (by simp [hclosed]), if_neg (by omega)]
      cases node with
      | link target => exact absurd rfl (hlink target)
      | directory => simp [hnode]
      | file data => simp [hnode]
    | @link n target w' hidle hdots hclosed hlength hnode hlimit hfollow =>
      rw [if_neg (by simp [hidle]), if_neg hdots, if_neg (by simp [hclosed]), if_neg (by omega)]
      simpa [hnode, hlimit] using hfollow

/-- No name is followed from a closed directory. -/
theorem step_of_isClosed {follow : Walk → Path → Except Fault Walk} {w : Walk} (hn : n.IsPlain)
    (hw : d.node? w.place = some .directory) (hclosed : d.isClosed w.place = true) :
    d.step follow w n.bytes = .error .accessDenied := by
  unfold step
  simp only [hw]
  rw [if_neg (by simp [hn.isIdle_eq_false]), if_neg hn.ne_dots, if_pos hclosed]

/-- A step to an entry that is no link. -/
theorem step_of_node? {follow : Walk → Path → Except Fault Walk} {w : Walk} {node : Node}
    (hn : n.IsEntry) (hw : d.node? w.place = some .directory) (hopen : d.isClosed w.place = false)
    (h : d.node? (w.place ++ [n]) = some node) (hlink : ∀ target, node ≠ .link target) :
    d.step follow w n.bytes = .ok { w with place := w.place ++ [n] } :=
  step_eq_ok_iff.2 ⟨hw, .enter hn.isIdle_eq_false hn.ne_dots hopen hn.length_le h hlink⟩

/-- **The way to a place that stands is its own names**, no link being followed. -/
theorem along_of_stands (hd : d.IsSound) (h : d.Stands p) : d.along p = .ok (.setOut p) := by
  induction h with
  | root => rfl
  | child hp hdir hopen hnode hlink ih =>
    rw [along_concat, ih]
    have hn := isEntry_of_node? hd (Option.isSome_of_eq_some hnode)
      (List.mem_append_right _ List.mem_cons_self)
    exact step_of_node? hn hdir hopen hnode hlink

/-- A path from the root is carried out by walking over its pieces. -/
theorem canonicalize_eq_walk {path : Path} (habs : path.isAbsolute = true) (hnul : 0 ∉ path.bytes) :
    d.canonicalize path =
      (d.walk (d.follow d.linkCount) (.setOut []) path.pieces).map Walk.place := by
  have hcontains : path.bytes.contains 0 = false := by simpa using hnul
  have hempty : path.isEmpty = false := by
    cases hb : path.bytes with
    | nil => simp [Path.isAbsolute, hb] at habs
    | cons b bytes => simp [Path.isEmpty, hb]
  simp only [canonicalize, hcontains, follow, hempty, Walk.startOf, habs, Walk.setOut, if_true]
  cases d.walk (d.follow d.linkCount) ⟨[], 0⟩ path.pieces with
  | error fault => rfl
  | ok w => rfl

theorem zero_notMem_bytes_toPath (hplain : ∀ n ∈ names, n.IsPlain)
    (hnul : ∀ n ∈ names, 0 ∉ n.bytes) :
    0 ∉ (Route.ofNames names).toPath.bytes := by
  by_cases h : names = []
  · subst h
    decide
  · rw [Route.bytes_toPath hplain h]
    simp only [List.mem_flatMap, List.mem_cons, not_exists, not_and, not_or]
    exact fun n hn => ⟨by decide, hnul n hn⟩

/-- **The spelling of a route from the root is carried out name by name.** -/
theorem canonicalize_toPath_eq_along (hplain : ∀ n ∈ names, n.IsPlain)
    (hnul : ∀ n ∈ names, 0 ∉ n.bytes) :
    d.canonicalize (Route.ofNames names).toPath = (d.along names).map Walk.place := by
  rw [canonicalize_eq_walk (Route.isAbsolute_toPath names) (zero_notMem_bytes_toPath hplain hnul),
    Route.pieces_toPath hplain]
  split_ifs with h
  · subst h
    rfl
  · change ((names.map FileName.bytes).foldlM (d.step (d.follow d.linkCount))
      (.setOut [])).map _ = _
    rw [List.foldlM_map]
    rfl

/-- **A place that stands is where its spelling leads.** -/
theorem canonicalize_toPath (hd : d.IsSound) (h : d.Stands p) :
    d.canonicalize (Route.ofNames p).toPath = .ok p := by
  rw [canonicalize_toPath_eq_along (h.isPlain hd) fun n hn => (h.isEntry hd n hn).nul_notMem,
    along_of_stands hd h]
  rfl

/-- **What is in a closed directory is refused**, whatever it is. -/
theorem canonicalize_of_isClosed (hd : d.IsSound) (hp : d.Stands p)
    (hdir : d.node? p = some .directory) (hclosed : d.isClosed p = true) (hn : n.IsPlain)
    (hnul : 0 ∉ n.bytes) :
    d.canonicalize (Route.ofNames (p ++ [n])).toPath = .error .accessDenied := by
  rw [canonicalize_toPath_eq_along (forall_mem_concat.2 ⟨hp.isPlain hd, hn⟩)
      (forall_mem_concat.2 ⟨fun m hm => (hp.isEntry hd m hm).nul_notMem, hnul⟩),
    along_concat, along_of_stands hd hp]
  have hstep : d.step (d.follow d.linkCount) (.setOut p) n.bytes = .error .accessDenied :=
    step_of_isClosed hn hdir hclosed
  change (d.step (d.follow d.linkCount) (.setOut p) n.bytes).map _ = _
  rw [hstep]
  rfl

/-! ## Where a path can lead -/

/-- A step ends at a place that stands if following links does. -/
theorem stands_of_step {follow : Walk → Path → Except Fault Walk} {w w' : Walk}
    {piece : List UInt8}
    (hfollow : ∀ {v v' : Walk} {path : Path}, d.Stands v.place → follow v path = .ok v' →
      d.Stands v'.place)
    (hw : d.Stands w.place) (h : d.step follow w piece = .ok w') : d.Stands w'.place := by
  obtain ⟨hdir, hmoves⟩ := step_eq_ok_iff.1 h
  cases hmoves with
  | stay _ => exact hw
  | up => exact hw.dropLast
  | enter _ _ hopen _ hnode hlink => exact .child hw hdir hopen hnode hlink
  | link _ _ _ _ _ _ hto => exact hfollow (v := { w with links := w.links + 1 }) hw hto

/-- So a walk ends at one. -/
theorem stands_of_walk {follow : Walk → Path → Except Fault Walk} {w w' : Walk}
    {pieces : List (List UInt8)}
    (hfollow : ∀ {v v' : Walk} {path : Path}, d.Stands v.place → follow v path = .ok v' →
      d.Stands v'.place)
    (hw : d.Stands w.place) (h : d.walk follow w pieces = .ok w') : d.Stands w'.place := by
  induction pieces generalizing w with
  | nil =>
    cases h
    exact hw
  | cons piece pieces ih =>
    rw [walk, List.foldlM_cons, bind_eq_ok_iff] at h
    obtain ⟨v, hv, h⟩ := h
    exact ih (stands_of_step hfollow hw hv) h

theorem stands_startOf {w : Walk} (hw : d.Stands w.place) (path : Path) :
    d.Stands (w.startOf path).place := by
  unfold Walk.startOf
  split_ifs
  · exact .root
  · exact hw

/-- By induction on how deep links lie inside links, a path that is carried out
from a place that stands leads to one. -/
theorem stands_of_follow {depth : ℕ} {w w' : Walk} {path : Path} (hw : d.Stands w.place)
    (h : d.follow depth w path = .ok w') : d.Stands w'.place := by
  induction depth generalizing w w' path with
  | zero => cases h
  | succ depth ih =>
    rw [follow] at h
    split_ifs at h
    exact stands_of_walk ih (stands_startOf hw path) h

/-- No NUL byte is in a path that leads somewhere. -/
theorem zero_notMem_of_canonicalize {path : Path} (h : d.canonicalize path = .ok p) :
    0 ∉ path.bytes := by
  intro hnul
  simp [canonicalize, hnul] at h
  cases h

/-- **An absolute path leads to a place that stands.** -/
theorem stands_of_canonicalize {path : Path} (habs : path.isAbsolute = true)
    (h : d.canonicalize path = .ok p) : d.Stands p := by
  rw [canonicalize_eq_walk habs (zero_notMem_of_canonicalize h)] at h
  cases hw : d.walk (d.follow d.linkCount) (.setOut []) path.pieces with
  | error fault =>
    rw [hw] at h
    cases h
  | ok w =>
    rw [hw] at h
    cases h
    exact stands_of_walk (fun hv h => stands_of_follow hv h) .root hw

/-- What the spelling of a place leads to stands. -/
theorem stands_of_toPath (h : d.canonicalize (Route.ofNames names).toPath = .ok p) : d.Stands p :=
  stands_of_canonicalize (Route.isAbsolute_toPath names) h

/-- The plain spelling of the place leads there, or nowhere. -/
def IsOwn (d : Disk) (p : Place) : Prop :=
  ∀ q, d.canonicalize (Route.ofNames p).toPath = .ok q → q = p

theorem Stands.isOwn (hd : d.IsSound) (h : d.Stands p) : d.IsOwn p := by
  intro q hq
  rw [canonicalize_toPath hd h] at hq
  exact (Except.ok.inj hq).symm

/-- The names of a directory are those of the entries that are there. -/
theorem mem_names_iff : n ∈ d.names p ↔ (d.node? (p ++ [n])).isSome := by
  rw [node?_concat, List.lookup_isSome_iff, names, List.mem_mergeSort, List.mem_eraseDups,
    List.mem_filterMap]
  -- entry by entry, whether it is in the directory and what its name is
  refine exists_congr fun e => and_congr_right fun _ => ?_
  split_ifs with h
  · rcases List.eq_nil_or_concat' e.1 with he | ⟨q, m, he⟩
    · simp [he]
    · rw [he, List.dropLast_concat] at h
      rw [he, h, List.getLast?_concat, Option.some.injEq, beq_iff_eq, List.append_cancel_left_eq,
        List.singleton_inj]
      exact eq_comm
  · simp only [beq_iff_eq, false_iff]
    exact fun he => h (by simp [← he])

theorem isEntry_of_mem_names (hd : d.IsSound) (h : n ∈ d.names p) : n.IsEntry :=
  isEntry_of_node? hd (mem_names_iff.1 h) (by simp)

/-- **Reading a directory** comes to its names except those that it misses. -/
theorem readDirectory_eq_ok_iff {path : Path} {faults : List Fault} {names : List FileName} :
    d.readDirectory path = .ok (faults, names) ↔ ∃ p, d.lookup path = .ok p ∧
      d.isDirectory p = true ∧ (d.faultsAt p).readFault = none ∧
      (d.faultsAt p).entryFaults = faults ∧
      (d.names p).filter (· ∉ (d.faultsAt p).unread) = names := by
  rw [readDirectory, bind_eq_ok_iff]
  refine exists_congr fun p => and_congr_right fun _ => ?_
  by_cases hdirectory : d.isDirectory p = true
  · cases hfault : (d.faultsAt p).readFault <;> simp [hdirectory, hfault]
  · simp [hdirectory]

/-- The names that reading the directory by its plain spelling comes to. -/
def listing (d : Disk) (p : Place) : List FileName :=
  match d.readDirectory (Route.ofNames p).toPath with
  | .ok (_, names) => names
  | .error _ => []

/-- Reading the directory comes to the name, and the entry tells what it is. -/
def Lists (d : Disk) (p : Place) (n : FileName) : Prop :=
  n ∈ d.listing p ∧ d.kindFault? p n = none

theorem isEntry_of_mem_listing (hd : d.IsSound) (h : n ∈ d.listing p) : n.IsEntry := by
  unfold listing at h
  cases hread : d.readDirectory (Route.ofNames p).toPath with
  | error fault =>
    rw [hread] at h
    exact absurd h List.not_mem_nil
  | ok read =>
    obtain ⟨faults, names⟩ := read
    rw [hread] at h
    obtain ⟨q, -, -, -, -, rfl⟩ := readDirectory_eq_ok_iff.1 hread
    exact isEntry_of_mem_names hd (List.mem_filter.1 h).1

end Disk

end BuildMarkers
