import BuildMarkers.Disk.Basic
import BuildMarkers.Proofs.Disk.Standing
/-!
# Where spellings lead

Where the disk sets no limit on the number of links, a walk depends on the place
that it has reached and not on the links that it followed before
(`oblivious_follow`). So a spelling may have its directory resolved first: the last
name leads from there to the same place (`canonicalize_concat_congr`). A route
`Leads` to a place if it consists of names and is carried out to it; going on to
an entry of the directory that it leads to keeps this (`Leads.concat`), whatever
links are on the way.
-/

namespace BuildMarkers

namespace Disk

variable {d : Disk} {p q : Place} {n : FileName} {names : List FileName} {v w : Walk}

/-- The place where a walk ends, or the fault that stops it. -/
abbrev endOf (result : Except Fault Walk) : Except Fault Place := result.map Walk.place

theorem endOf_eq_ok {result : Except Fault Walk} :
    endOf result = .ok p ↔ ∃ w, result = .ok w ∧ w.place = p := by
  cases result with
  | error fault =>
    constructor
    · intro h
      cases h
    · rintro ⟨w, h, -⟩
      cases h
  | ok w =>
    constructor
    · intro h
      exact ⟨w, rfl, Except.ok.inj h⟩
    · rintro ⟨w', h, hp⟩
      cases h
      exact congrArg Except.ok hp

theorem resolved?_eq_some {r s : Route} :
    d.resolved? r = some s ↔ ∃ p, d.canonicalize r.toPath = .ok p ∧ s = .ofNames p := by
  unfold resolved?
  cases d.canonicalize r.toPath with
  | error fault => simp [Except.toOption]
  | ok p => simp [Except.toOption, eq_comm]

/-! ## Walks without a limit on links -/

/-- Where a path is carried out to depends on the place of the walk alone. -/
def Oblivious (follow : Walk → Path → Except Fault Walk) : Prop :=
  ∀ (v w : Walk) (path : Path), v.place = w.place → endOf (follow v path) = endOf (follow w path)

/-- A step ends at one place, whichever way led to where it starts. -/
theorem step_congr (hlimit : d.linkLimit = none) {follow : Walk → Path → Except Fault Walk}
    (hfollow : Oblivious follow) (h : v.place = w.place) (piece : List UInt8) :
    endOf (d.step follow v piece) = endOf (d.step follow w piece) := by
  unfold step
  rw [h, hlimit]
  cases d.node? w.place with
  | none => rfl
  | some node =>
    cases node with
    | file data => rfl
    | link target => rfl
    | directory =>
      simp only [Option.any_none, if_neg Bool.false_ne_true]
      split_ifs with hidle hdots hclosed hlength
      · exact congrArg Except.ok h
      · rfl
      · rfl
      · rfl
      · cases d.node? (w.place ++ [⟨piece⟩]) with
        | none => rfl
        | some node =>
          cases node with
          | file data => rfl
          | directory => rfl
          | link target => exact hfollow _ _ _ rfl

theorem walk_congr (hlimit : d.linkLimit = none) {follow : Walk → Path → Except Fault Walk}
    (hfollow : Oblivious follow) (h : v.place = w.place) (pieces : List (List UInt8)) :
    endOf (d.walk follow v pieces) = endOf (d.walk follow w pieces) := by
  induction pieces generalizing v w with
  | nil => exact congrArg Except.ok h
  | cons piece pieces ih =>
    have hstep := step_congr hlimit hfollow h piece
    simp only [walk, List.foldlM_cons] at ih ⊢
    cases hw : d.step follow w piece with
    | error fault =>
      rw [hw] at hstep
      cases hv : d.step follow v piece with
      | error fault' =>
        rw [hv] at hstep
        exact hstep
      | ok v' =>
        rw [hv] at hstep
        cases hstep
    | ok w' =>
      rw [hw] at hstep
      obtain ⟨v', hv, hplace⟩ := endOf_eq_ok.1 hstep
      rw [hv]
      exact ih hplace

/-- **Where a path leads does not depend on the links before it.** The induction
is on how deep links lie inside links. -/
theorem oblivious_follow (hlimit : d.linkLimit = none) (depth : ℕ) :
    Oblivious (d.follow depth) := by
  induction depth with
  | zero =>
    intro v w path _
    rfl
  | succ depth ih =>
    intro v w path h
    unfold follow
    split_ifs
    · rfl
    · have hstart : (v.startOf path).place = (w.startOf path).place := by
        unfold Walk.startOf
        split_ifs
        · rfl
        · exact h
      exact walk_congr hlimit ih hstart path.pieces

/-! ## Spellings by names -/

theorem zero_notMem_of_toPath (hplain : ∀ n ∈ names, n.IsPlain)
    (h : d.canonicalize (Route.ofNames names).toPath = .ok p) : ∀ n ∈ names, 0 ∉ n.bytes := by
  intro n hn hnul
  have hbytes := zero_notMem_of_canonicalize h
  rw [Route.bytes_toPath hplain (List.ne_nil_of_mem hn)] at hbytes
  exact hbytes (List.mem_flatMap.2 ⟨n, hn, List.mem_cons_of_mem _ hnul⟩)

/-- The names along which a walk goes are names of entries. -/
theorem exists_entry_of_along (hplain : ∀ n ∈ names, n.IsPlain) (h : d.along names = .ok w) :
    ∀ n ∈ names, ∃ e ∈ d.entries, n ∈ e.1 := by
  induction names using List.reverseRecOn generalizing w with
  | nil => simp
  | append_singleton names n ih =>
    obtain ⟨hnames, hn⟩ := forall_mem_concat.1 hplain
    rw [along_concat, bind_eq_ok_iff] at h
    obtain ⟨v, hv, hstep⟩ := h
    refine forall_mem_concat.2 ⟨ih hnames hv, ?_⟩
    have hentry {node : Node} (hnode : d.node? (v.place ++ [n]) = some node) :
        ∃ e ∈ d.entries, n ∈ e.1 := by
      rw [node?_concat] at hnode
      obtain ⟨e, he, hplace⟩ := List.lookup_isSome_iff.1 (Option.isSome_of_eq_some hnode)
      exact ⟨e, he, by rw [← eq_of_beq hplace]; simp⟩
    obtain ⟨-, hmoves⟩ := step_eq_ok_iff.1 hstep
    generalize hpiece : n.bytes = piece at hmoves
    cases hmoves with
    | stay hidle =>
      rw [← hpiece, hn.isIdle_eq_false] at hidle
      cases hidle
    | up => exact absurd hpiece hn.ne_dots
    | @enter m _ _ _ _ _ hnode _ =>
      obtain rfl : n = m := congrArg FileName.mk hpiece
      exact hentry hnode
    | @link m _ _ _ _ _ _ hnode _ _ =>
      obtain rfl : n = m := congrArg FileName.mk hpiece
      exact hentry hnode

/-- **A path leads along names of entries**, or nowhere. -/
theorem exists_entry_of_canonicalize (hplain : ∀ n ∈ names, n.IsPlain)
    (h : d.canonicalize (Route.ofNames names).toPath = .ok p) :
    ∀ n ∈ names, ∃ e ∈ d.entries, n ∈ e.1 := by
  rw [canonicalize_toPath_eq_along hplain (zero_notMem_of_toPath hplain h)] at h
  obtain ⟨w, hw, -⟩ := endOf_eq_ok.1 h
  exact exists_entry_of_along hplain hw

/-- **The directory of a spelling can be resolved first.** -/
theorem canonicalize_concat_congr (hd : d.IsSound) (hlimit : d.linkLimit = none)
    (hplain : ∀ m ∈ names, m.IsPlain) (hn : n.IsPlain) (hnul : 0 ∉ n.bytes)
    (h : d.canonicalize (Route.ofNames names).toPath = .ok p) :
    d.canonicalize (Route.ofNames (names ++ [n])).toPath =
      d.canonicalize (Route.ofNames (p ++ [n])).toPath := by
  have hstands := stands_of_toPath h
  have hnames := zero_notMem_of_toPath hplain h
  have hp := hstands.isEntry hd
  rw [canonicalize_toPath_eq_along (forall_mem_concat.2 ⟨hplain, hn⟩)
      (forall_mem_concat.2 ⟨hnames, hnul⟩),
    canonicalize_toPath_eq_along
      (forall_mem_concat.2 ⟨fun m hm => (hp m hm).toIsPlain, hn⟩)
      (forall_mem_concat.2 ⟨fun m hm => (hp m hm).nul_notMem, hnul⟩)]
  rw [canonicalize_toPath_eq_along hplain hnames] at h
  obtain ⟨w, hw, hplace⟩ := endOf_eq_ok.1 h
  rw [along_concat, along_concat, hw, along_of_stands hd hstands]
  exact step_congr (w := .setOut p) hlimit (oblivious_follow hlimit _) hplace n.bytes

/-- The route consists of names and leads to the place. -/
def Leads (d : Disk) (r : Route) (p : Place) : Prop :=
  ∃ names, (∀ n ∈ names, n.IsPlain) ∧ r = .ofNames names ∧ d.canonicalize r.toPath = .ok p

namespace Leads

variable {r : Route}

theorem stands (h : d.Leads r p) : d.Stands p := by
  obtain ⟨names, hplain, rfl, h⟩ := h
  exact stands_of_toPath h

theorem unique (h : d.Leads r p) (h' : d.Leads r q) : p = q := by
  obtain ⟨-, -, -, h⟩ := h
  obtain ⟨-, -, -, h'⟩ := h'
  rw [h] at h'
  exact Except.ok.inj h'

/-- A place that stands is where its own route leads. -/
theorem ofNames (hd : d.IsSound) (h : d.Stands p) : d.Leads (.ofNames p) p :=
  ⟨p, h.isPlain hd, rfl, canonicalize_toPath hd h⟩

/-- **One name further**, a route leads where the name leads from the place that
it led to. -/
theorem concat (hd : d.IsSound) (hlimit : d.linkLimit = none) (h : d.Leads r p) (hn : n.IsEntry)
    (hto : d.canonicalize (Route.ofNames (p ++ [n])).toPath = .ok q) :
    d.Leads (r ++ [.name n]) q := by
  obtain ⟨names, hplain, rfl, h⟩ := h
  refine ⟨names ++ [n], ?_, (Route.ofNames_concat names n).symm, ?_⟩
  · exact forall_mem_concat.2 ⟨hplain, hn.toIsPlain⟩
  · rw [← Route.ofNames_concat,
      canonicalize_concat_congr hd hlimit hplain hn.toIsPlain hn.nul_notMem h]
    exact hto

/-- **From a closed directory no name leads on**, whatever spelling led to it. -/
theorem refused (hd : d.IsSound) (hlimit : d.linkLimit = none) (h : d.Leads r p)
    (hdirectory : d.node? p = some .directory) (hclosed : d.isClosed p = true)
    (hn : n.IsPlain) (hnul : 0 ∉ n.bytes) :
    d.canonicalize (Route.toPath (r ++ [.name n])) = .error .accessDenied := by
  have hstands := h.stands
  obtain ⟨names, hplain, rfl, h⟩ := h
  rw [← Route.ofNames_concat, canonicalize_concat_congr hd hlimit hplain hn hnul h]
  exact canonicalize_of_isClosed hd hstands hdirectory hclosed hn hnul

end Leads

end Disk

end BuildMarkers
