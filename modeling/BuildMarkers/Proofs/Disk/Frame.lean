import BuildMarkers.Disk.Change
import BuildMarkers.Proofs.Disk.Standing
import BuildMarkers.Proofs.Text.RoundTrip
import Mathlib.Data.List.Perm.Subperm
/-!
# What a change of the disk leaves alone

A change shows at its own place and nowhere else. A temporary file is put where
nothing is, since there are more temporary names than entries (`node?_freshName`),
and one more file in such a place (`Adds`) takes no way away: every path leads
where it led (`Adds.canonicalize`), and a path that an entry is put by names the
same place (`Adds.of_entryPlace`), for no way leads through a file. When the file
is moved, it is found at its new place only (`Adds.replaced_moveFile`).
-/

namespace BuildMarkers

namespace Disk

variable {d D after : Disk} {p q x place : Place} {node : Node} {data : FileData}
  {content : List UInt8} {path target : Path}

/-! ## Changes at one place -/

/-- The disk holds what it held before. -/
def Unchanged (before after : Disk) : Prop := ∀ p, after.node? p = before.node? p

/-- The disk holds what it held before, and at the place a file with the content. -/
structure Replaced (before after : Disk) (place : Place) (content : List UInt8) : Prop where
  file : after.node? place = some (.file { content })
  elsewhere : ∀ p, p ≠ place → after.node? p = before.node? p

theorem lookup_filter_ne (entries : List (Place × Node)) (p q : Place) :
    (entries.filter (·.1 ≠ p)).lookup q = if q = p then none else entries.lookup q := by
  induction entries with
  | nil => simp
  | cons e entries ih =>
    obtain ⟨r, node⟩ := e
    by_cases hr : r = p
    · rw [List.filter_cons_of_neg (by simpa using hr), ih, List.lookup_cons]
      split_ifs with hq
      · rfl
      · rw [beq_false_of_ne fun h => hq (h.trans hr)]
    · rw [List.filter_cons_of_pos (by simpa using hr), List.lookup_cons, List.lookup_cons, ih]
      by_cases hq : q = r
      · simp [hq, hr]
      · rw [beq_false_of_ne hq]

theorem node?_put (hp : p ≠ []) :
    (d.put p node).node? q = if q = p then some node else d.node? q := by
  unfold node? put
  by_cases hq : q = p
  · subst hq
    simp [hp]
  · rw [if_neg hq]
    simp only [List.lookup_cons, beq_false_of_ne hq, lookup_filter_ne, if_neg hq]

theorem node?_remove (hp : p ≠ []) : (d.remove p).node? q = if q = p then none else d.node? q := by
  unfold node? remove
  by_cases hq : q = p
  · subst hq
    simp only [lookup_filter_ne]
    simp [hp]
  · simp only [lookup_filter_ne, if_neg hq]

theorem put_put (d : Disk) (p : Place) (m n : Node) : (d.put p m).put p n = d.put p n := by
  simp [put]

/-! ## Temporary files -/

/-- What stands behind a check gives a result if the check is passed and it gives
that result. -/
theorem unless_eq_ok_iff {α : Type} {p : Prop} [Decidable p] {fault : Fault}
    {x : Except Fault α} {a : α} :
    (do
      if p then throw fault
      x) = .ok a ↔ ¬ p ∧ x = .ok a := by
  by_cases hp : p
  · rw [if_pos hp]
    constructor
    · intro h
      cases h
    · rintro ⟨hnot, -⟩
      exact absurd hp hnot
  · rw [if_neg hp, and_iff_right hp]

theorem temporaryName_injective : Function.Injective temporaryName := by
  intro m n h
  rw [temporaryName, temporaryName, FileName.ofString, FileName.ofString, FileName.mk.injEq] at h
  have htext := Text.encode_injective h
  have hdigits : sixDigits m = sixDigits n := by
    simpa using congrArg String.toList htext
  have hvalue := congrArg (Nat.ofDigitChars 10 · 0) hdigits
  simpa [sixDigits, Nat.ofDigitChars_append] using hvalue

/-- **Nothing bears the name of a new temporary file.** If all of the names were
taken, there would be more entries than there are. -/
theorem node?_freshName (d : Disk) (directory : Place) :
    d.node? (directory ++ [d.freshName directory]) = none := by
  rw [← Option.isNone_iff_eq_none, freshName]
  cases hfree : (List.range (d.entries.length + 1)).find? fun n =>
      (d.node? (directory ++ [temporaryName n])).isNone with
  | some n => simpa using List.find?_some hfree
  | none =>
    -- otherwise each name is taken by an entry of its own, and there are too few
    exfalso
    have htaken : ∀ n ∈ List.range (d.entries.length + 1),
        directory ++ [temporaryName n] ∈ d.entries.map Prod.fst := by
      intro n hn
      have hsome : (d.node? (directory ++ [temporaryName n])).isSome := by
        simpa [Option.isSome_iff_ne_none] using List.find?_eq_none.1 hfree n hn
      rw [node?_concat, List.lookup_isSome_iff] at hsome
      obtain ⟨e, he, hplace⟩ := hsome
      rw [eq_of_beq hplace]
      exact List.mem_map_of_mem he
    have hnodup : ((List.range (d.entries.length + 1)).map fun n =>
        directory ++ [temporaryName n]).Nodup :=
      List.nodup_range.map fun m n h => temporaryName_injective (by simpa using h)
    have hsubset : ((List.range (d.entries.length + 1)).map fun n =>
        directory ++ [temporaryName n]) ⊆ d.entries.map Prod.fst := by
      intro q hq
      obtain ⟨n, hn, rfl⟩ := List.mem_map.1 hq
      exact htaken n hn
    have hlength := (hnodup.subperm hsubset).length_le
    simp only [List.length_map, List.length_range] at hlength
    omega

/-- A temporary file is put where nothing was. -/
theorem createTemporary_eq_ok {directory : Path} (h : d.createTemporary directory = .ok (x, D)) :
    x ≠ [] ∧ d.node? x = none ∧ D = d.put x (.file { content := [] }) := by
  obtain ⟨-, -, h⟩ := bind_eq_ok_iff.1 h
  obtain ⟨parent, -, h⟩ := bind_eq_ok_iff.1 h
  obtain ⟨-, h⟩ := unless_eq_ok_iff.1 h
  cases h
  exact ⟨by simp, node?_freshName d parent, rfl⟩

/-! ## One more file -/

/-- The second disk is the first with a file where nothing was. -/
structure Adds (d D : Disk) (x : Place) : Prop where
  fresh : d.node? x = none
  isFile : ∃ data, D.node? x = some (.file data)
  same : ∀ q, q ≠ x → D.node? q = d.node? q
  linkCount_eq : D.linkCount = d.linkCount
  linkLimit_eq : D.linkLimit = d.linkLimit
  workingDirectory_eq : D.workingDirectory = d.workingDirectory
  directoryFaults_eq : D.directoryFaults = d.directoryFaults

/-- A file that is put where nothing is adds to the disk. -/
theorem adds_put (hx : x ≠ []) (h : d.node? x = none) : d.Adds (d.put x (.file data)) x := by
  refine ⟨h, ⟨data, by rw [node?_put hx, if_pos rfl]⟩,
    fun q hq => by rw [node?_put hx, if_neg hq], ?_, rfl, rfl, rfl⟩
  have hall : ∀ e ∈ d.entries, e.1 ≠ x := by
    rintro e he rfl
    have hnone : d.entries.lookup e.1 = none := by simpa [node?, hx] using h
    have hne := List.lookup_eq_none_iff.1 hnone e he
    simp at hne
  simp only [linkCount, put]
  rw [List.filter_eq_self.2 (by simpa using hall), List.countP_cons_of_neg (by simp)]

namespace Adds

variable {v w w' : Walk} {piece : List UInt8} {pieces : List (List UInt8)} {depth : ℕ}
  {f g : Walk → Path → Except Fault Walk}

/-- What is somewhere is not where nothing is. -/
theorem ne_of_node? (h : d.Adds D x) (hq : d.node? q = some node) : q ≠ x := by
  rintro rfl
  rw [h.fresh] at hq
  cases hq

theorem node?_of_some (h : d.Adds D x) (hq : d.node? q = some node) : D.node? q = some node := by
  rw [h.same q (h.ne_of_node? hq), hq]

/-- The same directories are closed. -/
theorem isClosed_eq (h : d.Adds D x) : D.isClosed q = d.isClosed q := by
  rw [isClosed, isClosed, faultsAt, faultsAt, h.directoryFaults_eq]

/-- A step that succeeds succeeds all the same with one more file. -/
theorem step (h : d.Adds D x)
    (hfollow : ∀ {v v' : Walk} {path : Path}, f v path = .ok v' → g v path = .ok v')
    (hstep : d.step f w piece = .ok w') : D.step g w piece = .ok w' := by
  obtain ⟨hdirectory, hmoves⟩ := step_eq_ok_iff.1 hstep
  refine step_eq_ok_iff.2 ⟨h.node?_of_some hdirectory, ?_⟩
  cases hmoves with
  | stay hidle => exact .stay hidle
  | up => exact .up
  | enter hidle hdots hopen hlength hnode hlink =>
    exact .enter hidle hdots (h.isClosed_eq.trans hopen) hlength (h.node?_of_some hnode) hlink
  | link hidle hdots hopen hlength hnode hlimit hto =>
    exact .link hidle hdots (h.isClosed_eq.trans hopen) hlength (h.node?_of_some hnode)
      (h.linkLimit_eq ▸ hlimit) (hfollow hto)

theorem walk (h : d.Adds D x)
    (hfollow : ∀ {v v' : Walk} {path : Path}, f v path = .ok v' → g v path = .ok v')
    (hwalk : d.walk f w pieces = .ok w') : D.walk g w pieces = .ok w' := by
  induction pieces generalizing w with
  | nil => exact hwalk
  | cons piece pieces ih =>
    rw [Disk.walk, List.foldlM_cons, bind_eq_ok_iff] at hwalk ⊢
    obtain ⟨v, hv, hrest⟩ := hwalk
    exact ⟨v, h.step hfollow hv, ih hrest⟩

theorem follow (h : d.Adds D x) (hfollow : d.follow depth w path = .ok w') :
    D.follow depth w path = .ok w' := by
  induction depth generalizing w w' path with
  | zero => cases hfollow
  | succ depth ih =>
    rw [Disk.follow] at hfollow ⊢
    split_ifs at hfollow ⊢
    exact h.walk ih hfollow

/-- **A path that leads somewhere still leads there.** -/
theorem canonicalize (h : d.Adds D x) (hto : d.canonicalize path = .ok p) :
    D.canonicalize path = .ok p := by
  unfold Disk.canonicalize at hto ⊢
  rw [h.linkCount_eq, h.workingDirectory_eq]
  by_cases hnul : path.bytes.contains 0 = true
  · rw [if_pos hnul] at hto
    cases hto
  · rw [if_neg hnul] at hto ⊢
    obtain ⟨w, hw, hto⟩ := bind_eq_ok_iff.1 hto
    exact bind_eq_ok_iff.2 ⟨w, h.follow hw, hto⟩

/-- A file that can be opened is opened all the same with one more file. -/
theorem openFile (h : d.Adds D x) (hpath : d.isFile path = true) :
    D.openFile path = d.openFile path := by
  rw [Disk.isFile, nodeAt?] at hpath
  cases hlookup : d.lookup path with
  | error fault => simp [hlookup] at hpath
  | ok place =>
    rw [hlookup] at hpath
    have hlookup' : D.lookup path = .ok place := by
      obtain ⟨u, hcheck, hplace⟩ := bind_eq_ok_iff.1 hlookup
      exact bind_eq_ok_iff.2 ⟨u, hcheck, h.canonicalize hplace⟩
    cases hnode : d.node? place with
    | none => simp [hnode] at hpath
    | some node =>
      simp only [Disk.openFile, hlookup, hlookup', bind, Except.bind, hnode, h.node?_of_some hnode]

/-- A file that was added leaves nothing behind when it is removed. -/
theorem unchanged_remove (h : d.Adds D x) (hx : x ≠ []) : d.Unchanged (D.remove x) := by
  intro p
  rw [node?_remove hx]
  by_cases hp : p = x
  · rw [if_pos hp, hp, h.fresh]
  · rw [if_neg hp, h.same p hp]

/-- The other way round, a step with one more file ends at the file or succeeds
without it. -/
theorem of_step (h : d.Adds D x)
    (hfollow : ∀ {v v' : Walk} {path : Path}, g v path = .ok v' → v'.place = x ∨ f v path = .ok v')
    (hstep : D.step g w piece = .ok w') : w'.place = x ∨ d.step f w piece = .ok w' := by
  obtain ⟨hdirectory, hmoves⟩ := step_eq_ok_iff.1 hstep
  have hplace : d.node? w.place = some .directory := by
    rw [← h.same, hdirectory]
    rintro hx
    obtain ⟨data, hfile⟩ := h.isFile
    rw [hx, hfile] at hdirectory
    cases hdirectory
  have hold {n : FileName} {node : Node} (hnode : D.node? (w.place ++ [n]) = some node)
      (hne : w.place ++ [n] ≠ x) : d.node? (w.place ++ [n]) = some node := by
    rw [← h.same _ hne, hnode]
  cases hmoves with
  | stay hidle => exact .inr (step_eq_ok_iff.2 ⟨hplace, .stay hidle⟩)
  | up => exact .inr (step_eq_ok_iff.2 ⟨hplace, .up⟩)
  | @enter n node hidle hdots hopen hlength hnode hlink =>
    by_cases hx : w.place ++ [n] = x
    · exact .inl hx
    · right
      have hopen := h.isClosed_eq.symm.trans hopen
      exact step_eq_ok_iff.2 ⟨hplace, .enter hidle hdots hopen hlength (hold hnode hx) hlink⟩
  | @link n target w' hidle hdots hopen hlength hnode hlimit hto =>
    -- what is new is a file, so the link was there before, and its target decides
    have hx : w.place ++ [n] ≠ x := by
      rintro hx
      obtain ⟨data, hfile⟩ := h.isFile
      rw [hx, hfile] at hnode
      cases hnode
    refine (hfollow hto).imp_right fun hto => step_eq_ok_iff.2 ⟨hplace, ?_⟩
    exact .link hidle hdots (h.isClosed_eq.symm.trans hopen) hlength (hold hnode hx)
      (h.linkLimit_eq ▸ hlimit) hto

/-- A walk does not go on from a file, so it ends at the new one or never comes
by it. -/
theorem of_walk (h : d.Adds D x)
    (hfollow : ∀ {v v' : Walk} {path : Path}, g v path = .ok v' → v'.place = x ∨ f v path = .ok v')
    (hwalk : D.walk g w pieces = .ok w') : w'.place = x ∨ d.walk f w pieces = .ok w' := by
  induction pieces generalizing w with
  | nil => exact .inr hwalk
  | cons piece pieces ih =>
    rw [Disk.walk, List.foldlM_cons, bind_eq_ok_iff] at hwalk
    obtain ⟨v, hv, hrest⟩ := hwalk
    rcases h.of_step hfollow hv with hx | hv
    · -- one more step from the new file would have to set out from a directory
      left
      cases pieces with
      | nil =>
        cases hrest
        exact hx
      | cons next pieces =>
        rw [List.foldlM_cons, bind_eq_ok_iff] at hrest
        obtain ⟨u, hu, -⟩ := hrest
        obtain ⟨data, hfile⟩ := h.isFile
        have hdirectory := (step_eq_ok_iff.1 hu).1
        rw [hx, hfile] at hdirectory
        cases hdirectory
    · refine (ih hrest).imp_right fun hrest => ?_
      rw [Disk.walk, List.foldlM_cons]
      exact bind_eq_ok_iff.2 ⟨v, hv, hrest⟩

theorem of_follow (h : d.Adds D x) (hfollow : D.follow depth w path = .ok w') :
    w'.place = x ∨ d.follow depth w path = .ok w' := by
  induction depth generalizing w w' path with
  | zero => cases hfollow
  | succ depth ih =>
    rw [Disk.follow] at hfollow ⊢
    split_ifs at hfollow ⊢
    exact h.of_walk ih hfollow

end Adds

/-- A walk whose last piece is empty ends at a directory. -/
theorem isDirectory_of_walk {follow : Walk → Path → Except Fault Walk} {w w' : Walk}
    {pieces : List (List UInt8)} (h : d.walk follow w (pieces ++ [[]]) = .ok w') :
    d.node? w'.place = some .directory := by
  rw [walk, List.foldlM_append, bind_eq_ok_iff] at h
  obtain ⟨v, -, hlast⟩ := h
  rw [List.foldlM_cons, bind_eq_ok_iff] at hlast
  obtain ⟨u, hu, hend⟩ := hlast
  cases hend
  obtain ⟨hdirectory, hmoves⟩ := step_eq_ok_iff.1 hu
  have hidle : Path.isIdle [] = true := rfl
  generalize hpiece : ([] : List UInt8) = piece at hmoves
  cases hmoves with
  | stay _ => exact hdirectory
  | up => cases hpiece
  | enter hnot _ _ _ _ _ =>
    rw [← hpiece, hidle] at hnot
    cases hnot
  | link hnot _ _ _ _ _ _ =>
    rw [← hpiece, hidle] at hnot
    cases hnot

/-- The pieces of a path that names an entry, empty ones at its end left out. -/
def entryPieces (p : Path) : List (List UInt8) :=
  Text.dropTrailing (fun piece => piece = []) p.pieces

theorem entryPlace_eq_ok_iff {d : Disk} {path : Path} {place : Place} :
    d.entryPlace path = .ok place ↔
      ¬ path.isEmpty ∧ ¬ path.bytes.contains 0 ∧ ¬ pathLimit < path.bytes.length ∧
        ∃ last parent, (entryPieces path).getLast? = some last ∧
          d.walk (d.follow d.linkCount) ((Walk.setOut d.workingDirectory).startOf path)
            ((entryPieces path).dropLast ++ [[]]) = .ok parent ∧
          ¬ (last = [dot] || last = [dot, dot]) ∧ ¬ nameLimit < last.length ∧
          ¬ (entryPieces path).length < path.pieces.length ∧ ¬ d.isClosed parent.place ∧
          parent.place ++ [⟨last⟩] = place := by
  rw [entryPlace, unless_eq_ok_iff, unless_eq_ok_iff, unless_eq_ok_iff]
  simp only [entryPieces]
  cases hlast : (Text.dropTrailing (fun piece => piece = []) path.pieces).getLast? with
  | none => simp [throw, throwThe, MonadExceptOf.throw]
  | some last =>
    simp only [Option.some.injEq, exists_and_left, exists_eq_left', bind_eq_ok_iff,
      unless_eq_ok_iff]
    simp only [pure, Except.pure, Except.ok.injEq]

/-- A path that an entry is put by names the same place with one more file as
without it: the way to the directory of the entry does not end at a file. -/
theorem Adds.of_entryPlace (h : d.Adds D x) (hplace : D.entryPlace path = .ok place) :
    d.entryPlace path = .ok place ∧ place ≠ [] := by
  obtain ⟨hempty, hnul, hlimit, last, parent, hlast, hwalk, hdots, hname, hslash, hopen, rfl⟩ :=
    entryPlace_eq_ok_iff.1 hplace
  refine ⟨?_, by simp⟩
  rw [entryPlace_eq_ok_iff]
  rw [h.isClosed_eq] at hopen
  refine ⟨hempty, hnul, hlimit, last, parent, hlast, ?_, hdots, hname, hslash, hopen, rfl⟩
  -- the way to the entry ends at a directory, so not at the new file
  have hdirectory := isDirectory_of_walk hwalk
  rw [h.linkCount_eq, h.workingDirectory_eq] at hwalk
  rcases h.of_walk h.of_follow hwalk with hx | hwalk
  · obtain ⟨data, hfile⟩ := h.isFile
    rw [hx, hfile] at hdirectory
    cases hdirectory
  · exact hwalk

/-! ## Moving a file -/

theorem moveFile_eq_ok (h : d.moveFile x target = .ok D) :
    ∃ place node, d.entryPlace target = .ok place ∧ d.node? x = some node ∧
      D = (d.remove x).put place node := by
  obtain ⟨place, hplace, hmove⟩ := bind_eq_ok_iff.1 h
  split at hmove
  · cases hmove
  · cases hmove
  · next node hnode _ =>
    cases hmove
    exact ⟨place, node, hplace, hnode, rfl⟩

/-- **A file that was added and is moved is found at its new place only**, unless
that is the one it had. -/
theorem Adds.replaced_moveFile (h : d.Adds D x) (hx : x ≠ [])
    (hfile : D.node? x = some (.file { content })) (hmove : D.moveFile x target = .ok after) :
    ∃ out, d.entryPlace target = .ok out ∧ d.Replaced after out content := by
  obtain ⟨out, node, hout, hnode, rfl⟩ := moveFile_eq_ok hmove
  obtain rfl : .file { content } = node := Option.some.inj (hfile.symm.trans hnode)
  obtain ⟨hplace, hroot⟩ := h.of_entryPlace hout
  refine ⟨out, hplace, by rw [node?_put hroot, if_pos rfl], fun p hp => ?_⟩
  rw [node?_put hroot, if_neg hp]
  exact h.unchanged_remove hx p

end Disk

end BuildMarkers
