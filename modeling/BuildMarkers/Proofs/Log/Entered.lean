import BuildMarkers.Log.DirectoryChange
import BuildMarkers.Proofs.Path.Canonical
import Mathlib.Algebra.Order.Ring.Nat
import Mathlib.Data.List.Infix
/-!
# Directories that stay entered

A directory that a make enters stays entered unless a later move leaves it, and a move
leaves the last one that is entered. So what is entered before some moves stays so just if
these never leave more often than they enter (`Trail.Keeps`), and a move that leaves where
nothing is entered has no effect. The moves of a trail come down to the directories that
stay entered, one after the other (`Trail.foldl_move`), and the current directory is where
these lead when they are joined (`Trail.foldl_move_start`).
-/

namespace BuildMarkers

namespace Trail

/-- A move of a make between directories. -/
inductive Move where
  /-- Into a directory. -/
  | enter (directory : Path)
  /-- Out of the last directory. -/
  | leave
  deriving DecidableEq, Repr

/-- The move goes into a directory. -/
def Move.isEntering : Move → Bool
  | .enter _ => true
  | .leave => false

/-- The trail after the move. -/
def move (t : Trail) : Move → Trail
  | .enter directory => t.enter directory
  | .leave => t.leave

/-- What the moves return, each the directory that is current after it. -/
def answers (t : Trail) : List Move → List Route
  | [] => []
  | m :: later => (t.move m).current :: (t.move m).answers later

/-- At no point of the moves more directories have been left than entered, so what was
entered before them is not left. -/
def Keeps (moves : List Move) : Prop :=
  ∀ front, front <+: moves → front.count .leave ≤ front.countP Move.isEntering

instance (moves : List Move) : Decidable (Keeps moves) :=
  decidable_of_iff (∀ front ∈ moves.inits, front.count .leave ≤ front.countP Move.isEntering)
    (by simp [Keeps])

/-- The directories that are entered and that no later move leaves. -/
def kept : List Move → List Path
  | [] => []
  | .enter directory :: later => if Keeps later then directory :: kept later else kept later
  | .leave :: later => kept later

/-- The base with the directories that stay entered joined to it, in their order. -/
def joined (base : Path) (moves : List Move) : Path := (kept moves).foldl Path.join base

/-- How many of the moves leave what was entered before them, if there is as much. -/
def unmatched : List Move → ℕ
  | [] => 0
  | .enter _ :: later => unmatched later - 1
  | .leave :: later => unmatched later + 1

variable {moves : List Move} {k : ℕ}

/-- Each move returns where the moves up to it lead. -/
theorem answers_eq (t : Trail) (moves : List Move) :
    t.answers moves = moves.inits.tail.map fun front => (front.foldl move t).current := by
  induction moves generalizing t with
  | nil => rfl
  | cons m later ih =>
    have hinits : later.inits.map (fun front => (front.foldl move (t.move m)).current) =
        (t.move m).current :: later.inits.tail.map fun front =>
          (front.foldl move (t.move m)).current := by
      cases later <;> simp
    rw [answers, ih, List.inits_cons, List.tail_cons, List.map_map, ← hinits]
    rfl

/-! ## What stays entered -/

/-- What holds at every point of a list holds in front of its head and at every point
behind it. -/
theorem forall_prefix_cons_iff {α : Type} {p : List α → Prop} {a : α} {l : List α} :
    (∀ front, front <+: a :: l → p front) ↔ p [] ∧ ∀ front, front <+: l → p (a :: front) := by
  constructor
  · intro h
    exact ⟨h [] List.nil_prefix, fun front hfront => h _ (List.cons_prefix_cons.2 ⟨rfl, hfront⟩)⟩
  · rintro ⟨hnil, hcons⟩ front hfront
    rcases List.prefix_cons_iff.1 hfront with rfl | ⟨rest, rfl, hrest⟩
    · exact hnil
    · exact hcons rest hrest

/-- Moves leave no more than `k` of what was entered before them if at no point the directories
that have been left outnumber those entered by more. -/
theorem unmatched_le_iff :
    unmatched moves ≤ k ↔ ∀ front, front <+: moves →
      front.count .leave ≤ front.countP Move.isEntering + k := by
  induction moves generalizing k with
  | nil => simp [unmatched]
  | cons m later ih =>
    rw [forall_prefix_cons_iff]
    cases m with
    | enter directory =>
      have hcounts (front : List Move) : (Move.enter directory :: front).count .leave =
          front.count .leave ∧
          (Move.enter directory :: front).countP Move.isEntering =
            front.countP Move.isEntering + 1 :=
        ⟨List.count_cons_of_ne (by simp), List.countP_cons_of_pos rfl⟩
      simp only [hcounts, Nat.add_right_comm _ 1 k, Nat.add_assoc _ k 1]
      rw [unmatched, Nat.sub_le_iff_le_add, ih]
      simp
    | leave =>
      have hcounts (front : List Move) :
          (Move.leave :: front).count .leave = front.count .leave + 1 ∧
          (Move.leave :: front).countP Move.isEntering = front.countP Move.isEntering :=
        ⟨List.count_cons_self, List.countP_cons_of_neg (by simp [Move.isEntering])⟩
      simp only [hcounts]
      cases k with
      | zero =>
        refine iff_of_false (by simp [unmatched]) fun h => ?_
        simpa using h.2 [] List.nil_prefix
      | succ k =>
        rw [unmatched, Nat.add_le_add_iff_right, ih]
        simp [← Nat.add_assoc]

theorem unmatched_eq_zero_iff : unmatched moves = 0 ↔ Keeps moves := by
  rw [← Nat.le_zero, unmatched_le_iff]
  rfl

/-- **Moves come down to entering what they keep**, once they have left what was entered before
them. -/
theorem foldl_move (t : Trail) (moves : List Move) :
    moves.foldl move t = (kept moves).foldl enter
      { t with entered := t.entered.drop (unmatched moves) } := by
  -- the first move changes the trail, so the moves behind it start from another one
  induction moves generalizing t with
  | nil => rfl
  | cons m later ih =>
    rw [List.foldl_cons, ih]
    cases m with
    | enter directory =>
      rw [kept, unmatched]
      split_ifs with hkeeps
      · rw [unmatched_eq_zero_iff.2 hkeeps]
        rfl
      · -- the later moves leave the directory, and with it one less of what is below
        obtain ⟨n, hn⟩ := Nat.exists_eq_succ_of_ne_zero (mt unmatched_eq_zero_iff.1 hkeeps)
        rw [hn]
        rfl
    | leave =>
      rw [kept, unmatched, move, leave, List.drop_tail]

/-! ## Where the trail leads -/

/-- Directories that are entered one after the other lead where they lead when they are
joined. -/
theorem foldl_enter {t : Trail} {base : Path} (h : t.current = base.location)
    (directories : List Path) :
    (directories.foldl enter t).current = (directories.foldl Path.join base).location ∧
      (directories.foldl enter t).depth = t.depth + directories.length := by
  induction directories generalizing t base with
  | nil => exact ⟨h, rfl⟩
  | cons directory directories ih =>
    have hnext : (t.enter directory).current = (base.join directory).location := by
      rw [Path.location_join, ← h]
      rfl
    obtain ⟨hcurrent, hdepth⟩ := ih hnext
    refine ⟨hcurrent, ?_⟩
    have hentered : (t.enter directory).depth = t.depth + 1 := rfl
    rw [List.foldl_cons, hdepth, hentered, List.length_cons]
    omega

/-- A directory that is joined to others is absolute if the first of them is. -/
theorem isAbsolute_foldl_join {base : Path} (h : base.isAbsolute = true) (directories : List Path) :
    (directories.foldl Path.join base).isAbsolute = true := by
  induction directories generalizing base with
  | nil => exact h
  | cons directory directories ih => exact ih (Path.isAbsolute_join h)

/-- **The trail is where the directories lead that stay entered.** Their number is its depth,
and joined to the base they lead to the current directory, whatever has been entered and left
in between. This one is normalized, and from an absolute base it is absolute and goes nowhere
up. Each move returns the directory that is current after it. -/
theorem foldl_move_start (base : Path) (moves : List Move) :
    let t := moves.foldl move (start base.route)
    t.depth = (kept moves).length ∧
    t.current = (joined base moves).location ∧
    (t.current.normalize = t.current ∧ t.current.toPath.location = t.current) ∧
    (base.isAbsolute = true → t.current.isAbsolute = true ∧ .parent ∉ t.current) ∧
    (start base.route).answers moves = moves.inits.tail.map fun front =>
      (joined base front).location := by
  intro t
  have hrun (moves : List Move) : (moves.foldl move (start base.route)).current =
      (joined base moves).location ∧
      (moves.foldl move (start base.route)).depth = (kept moves).length := by
    have hstart : (start base.route).current = base.location := rfl
    have hnone :
        { start base.route with entered := (start base.route).entered.drop (unmatched moves) } =
        start base.route := by simp [start]
    obtain ⟨hcurrent, hdepth⟩ := foldl_enter hstart (kept moves)
    rw [foldl_move, hnone]
    exact ⟨hcurrent, hdepth.trans (Nat.zero_add _)⟩
  obtain ⟨hcurrent, hdepth⟩ := hrun moves
  refine ⟨hdepth, hcurrent, ⟨?_, ?_⟩, fun habs => ?_, ?_⟩
  · rw [hcurrent, (Path.isCanonical_location _).normalize_eq]
  · rw [hcurrent]
    exact Path.location_normalized _
  · have hjoined : (joined base moves).isAbsolute = true := isAbsolute_foldl_join habs _
    rw [hcurrent, Path.isAbsolute_location]
    refine ⟨hjoined, Route.parent_notMem_normalize ?_⟩
    rwa [Path.isAbsolute_route]
  · rw [answers_eq]
    exact List.map_congr_left fun front _ => (hrun front).1

/-- Moves of which two leave where nothing is entered, and two leave what was entered. -/
def wanderings : List Move := [
  .leave, .enter (.ofString "lib"), .enter (.ofString "../tools/./gen"), .leave, .leave, .leave,
  .enter (.ofString "../../out"), .enter (.ofString "x/..")]

/-- The last two directories stay entered, and lead above the base to below the root. -/
theorem foldl_move_start_wanderings :
    let t := wanderings.foldl move (start (Path.ofString "/ws").route)
    t.depth = 2 ∧ t.current = .ofNames [.ofString "out"] ∧ .parent ∉ t.current ∧
      (start (Path.ofString "/ws").route).answers wanderings =
        [[], ["lib"], ["tools", "gen"], ["lib"], [], []].map
          (fun names => .ofNames (.ofString "ws" :: names.map .ofString)) ++
          [.ofNames [.ofString "out"], .ofNames [.ofString "out"]] := by
  obtain ⟨hdepth, hcurrent, -, habsolute, hanswers⟩ := foldl_move_start (.ofString "/ws") wanderings
  refine ⟨?_, ?_, (habsolute (by decide)).2, ?_⟩
  · rw [hdepth]
    decide
  · rw [hcurrent]
    decide
  · rw [hanswers]
    decide

end Trail

end BuildMarkers
