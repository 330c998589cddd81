import BuildMarkers.Path.Route
import BuildMarkers.Proofs.Text.Segments
import Mathlib.Data.List.Induction
/-!
# Routes from the root

A plain name can stand between the slashes of a path and means an entry there.
A route from the root along plain names survives everything that is done with
routes: its spelling has exactly these names between the slashes
(`pieces_toPath`), reading the spelling gives the route back (`route_toPath`),
and normalizing changes nothing (`normalize_ofNames`). Every absolute path
normalizes to such a route (`location_eq_ofNames`), and whatever is normalized
stays as it is (`normalize_normalize`). A text is an absolute path if a slash
stands in front of it (`isAbsolute_ofString`).
-/

namespace BuildMarkers

/-- What is split at a byte is left without it. -/
theorem notMem_of_mem_splitOn {separator : UInt8} {bytes piece : List UInt8}
    (h : piece ∈ bytes.splitOn separator) : separator ∉ piece := fun hmem => by
  simpa using Text.eq_false_of_mem_splitOnP h separator hmem

/-- What holds of the elements of a list and of one more holds of all. -/
theorem forall_mem_concat {α : Type} {p : α → Prop} {l : List α} {a : α} :
    (∀ b ∈ l ++ [a], p b) ↔ (∀ b ∈ l, p b) ∧ p a := by
  rw [List.forall_mem_append, List.forall_mem_singleton]

/-- A name that can stand between the slashes of a path and means an entry. -/
structure FileName.IsPlain (n : FileName) : Prop where
  ne_nil : n.bytes ≠ []
  slash_notMem : slash ∉ n.bytes
  ne_dot : n.bytes ≠ [dot]
  ne_dots : n.bytes ≠ [dot, dot]

namespace FileName.IsPlain

variable {n : FileName}

theorem isIdle_eq_false (h : n.IsPlain) : Path.isIdle n.bytes = false := by
  simp [Path.isIdle, h.ne_nil, h.ne_dot]

theorem ofPiece?_eq (h : n.IsPlain) : Component.ofPiece? n.bytes = some (.name n) := by
  simp [Component.ofPiece?, h.isIdle_eq_false, h.ne_dots]

theorem isAbsolute_eq_false (h : n.IsPlain) : Path.isAbsolute ⟨n.bytes⟩ = false := by
  simp only [Path.isAbsolute, beq_eq_false_iff_ne, ne_eq]
  exact fun hs => h.slash_notMem (List.mem_of_mem_head? hs)

instance : Decidable n.IsPlain :=
  decidable_of_iff (n.bytes ≠ [] ∧ slash ∉ n.bytes ∧ n.bytes ≠ [dot] ∧ n.bytes ≠ [dot, dot])
    ⟨fun ⟨hnil, hslash, hdot, hdots⟩ => ⟨hnil, hslash, hdot, hdots⟩,
      fun h => ⟨h.ne_nil, h.slash_notMem, h.ne_dot, h.ne_dots⟩⟩

theorem getLast?_ne (h : n.IsPlain) : n.bytes.getLast? ≠ some slash :=
  fun hs => h.slash_notMem (List.mem_of_getLast? hs)

end FileName.IsPlain

/-- A piece between slashes is idle, the step up, or a plain name. -/
theorem Component.ofPiece?_of_notMem {piece : List UInt8} (h : slash ∉ piece) :
    ofPiece? piece = none ∨ ofPiece? piece = some .parent ∨
      ∃ n : FileName, n.IsPlain ∧ ofPiece? piece = some (.name n) := by
  unfold ofPiece?
  split_ifs with hidle hdots
  · exact .inl rfl
  · exact .inr (.inl rfl)
  · simp only [Path.isIdle, Bool.or_eq_true, decide_eq_true_eq, not_or] at hidle
    exact .inr (.inr ⟨⟨piece⟩, ⟨hidle.1, h, hidle.2, hdots⟩, rfl⟩)

/-- What is joined to an absolute path is absolute. -/
theorem Path.isAbsolute_join {p q : Path} (h : p.isAbsolute = true) :
    (p.join q).isAbsolute = true := by
  have hne : p.bytes ≠ [] := by
    rintro hnil
    simp [Path.isAbsolute, hnil] at h
  unfold join
  split_ifs with hq
  · exact hq
  · rwa [isAbsolute, List.head?_append_of_ne_nil _ hne]
  · rwa [isAbsolute, List.head?_append_of_ne_nil _ hne]

namespace Route

variable {names : List FileName}

theorem ofNames_concat (names : List FileName) (n : FileName) :
    ofNames (names ++ [n]) = ofNames names ++ [.name n] := by
  simp [ofNames]

theorem ofNames_injective : Function.Injective ofNames := by
  intro a b h
  simp only [ofNames, List.cons.injEq, true_and] at h
  exact List.map_injective_iff.2 (fun _ _ h => by injection h) h

theorem toPath_concat (r : Route) (c : Component) : toPath (r ++ [c]) = r.toPath.join c.path := by
  simp [toPath]

theorem isAbsolute_toPath (names : List FileName) : (ofNames names).toPath.isAbsolute = true := by
  induction names using List.reverseRecOn with
  | nil => rfl
  | append_singleton names n ih =>
    rw [ofNames_concat, toPath_concat]
    exact Path.isAbsolute_join ih

/-- The spelling of a route: a slash before every name. -/
theorem bytes_toPath (hplain : ∀ n ∈ names, n.IsPlain) (hne : names ≠ []) :
    (ofNames names).toPath.bytes = names.flatMap (slash :: ·.bytes) := by
  induction names using List.reverseRecOn with
  | nil => exact absurd rfl hne
  | append_singleton names n ih =>
    have hn : n.IsPlain := hplain n (by simp)
    rw [ofNames_concat, toPath_concat, Component.path, Path.join,
      if_neg (by simp [hn.isAbsolute_eq_false])]
    -- the root ends with a slash already, and a name never does
    rcases List.eq_nil_or_concat' names with rfl | ⟨names, m, rfl⟩
    · simp [ofNames, toPath, Path.join, Path.isAbsolute, Component.path]
    · have hm : m.IsPlain := hplain m (by simp)
      have hbytes := ih (fun n hn => hplain n (List.mem_append_left _ hn)) (by simp)
      have hlast : (ofNames (names ++ [m])).toPath.bytes.getLast? = m.bytes.getLast? := by
        rw [hbytes]
        simp [List.getLast?_cons, List.getLast?_append, Option.or,
          List.getLast?_eq_some_getLast hm.ne_nil]
      rw [if_neg]
      · simp [hbytes]
      · rw [hlast]
        simp [hbytes, hm.getLast?_ne]

/-- Behind a first piece, the names stand between the slashes. -/
theorem splitOn_append_flatMap {piece : List UInt8} (hpiece : slash ∉ piece)
    (hplain : ∀ n ∈ names, n.IsPlain) :
    (piece ++ names.flatMap (slash :: ·.bytes)).splitOn slash =
      piece :: names.map FileName.bytes := by
  induction names generalizing piece with
  | nil => simp [List.splitOn_eq_singleton hpiece]
  | cons n names ih =>
    rw [List.flatMap_cons, List.cons_append, List.splitOn_append_cons_self,
      List.splitOn_eq_singleton hpiece, ih (hplain n (by simp)).slash_notMem
        fun m hm => hplain m (by simp [hm])]
    rfl

/-- The pieces of the spelling: the root, then the names. -/
theorem pieces_toPath (hplain : ∀ n ∈ names, n.IsPlain) :
    (ofNames names).toPath.pieces =
      [] :: if names = [] then [[]] else names.map FileName.bytes := by
  split_ifs with h
  · subst h
    rfl
  · rw [Path.pieces, bytes_toPath hplain h]
    exact splitOn_append_flatMap List.not_mem_nil hplain

theorem filterMap_ofPiece? (hplain : ∀ n ∈ names, n.IsPlain) :
    (names.map FileName.bytes).filterMap Component.ofPiece? = names.map .name := by
  induction names with
  | nil => rfl
  | cons n names ih =>
    rw [List.map_cons, List.filterMap_cons_some (hplain n (by simp)).ofPiece?_eq,
      ih fun m hm => hplain m (by simp [hm]), List.map_cons]

/-- **The spelling is read back.** -/
theorem route_toPath (hplain : ∀ n ∈ names, n.IsPlain) :
    (ofNames names).toPath.route = ofNames names := by
  rw [Path.route, if_pos (isAbsolute_toPath names), pieces_toPath hplain, ofNames]
  split_ifs with h
  · subst h
    rfl
  · rw [List.filterMap_cons_none (by rfl), filterMap_ofPiece? hplain]

/-! ## Normalizing -/

/-- Steps up and along plain names, from a route of plain names, lead to one:
what a step up takes back is the name before it, or nothing at the root. -/
theorem foldl_push (names : List FileName) {steps : List Component}
    (hsteps : ∀ c ∈ steps, c = .parent ∨ ∃ n : FileName, n.IsPlain ∧ c = .name n)
    (hplain : ∀ n ∈ names, n.IsPlain) :
    ∃ names', (∀ n ∈ names', n.IsPlain) ∧
      steps.foldl push (ofNames names).reverse = (ofNames names').reverse := by
  induction steps generalizing names with
  | nil => exact ⟨names, hplain, rfl⟩
  | cons c steps ih =>
    have hrest := fun c hc => hsteps c (List.mem_cons_of_mem _ hc)
    rcases hsteps c List.mem_cons_self with rfl | ⟨n, hn, rfl⟩
    · rcases List.eq_nil_or_concat' names with rfl | ⟨names, m, rfl⟩
      · exact ih [] hrest hplain
      · rw [ofNames_concat, List.reverse_append]
        exact ih names hrest fun n hn => hplain n (by simp [hn])
    · have := ih (names ++ [n]) hrest (forall_mem_concat.2 ⟨hplain, hn⟩)
      rwa [ofNames_concat, List.reverse_append] at this

theorem push_name (back : Route) (n : FileName) : push back (.name n) = .name n :: back := by
  rcases back with - | ⟨- | - | - | -, -⟩ <;> rfl

/-- What is no step up and no leading `.` is one step more on the way back. -/
theorem push_of_ne (back : Route) {c : Component} (hcurrent : c ≠ .current)
    (hparent : c ≠ .parent) :
    push back c = c :: back := by
  cases c with
  | root => rcases back with - | ⟨- | - | - | -, -⟩ <;> rfl
  | current => exact absurd rfl hcurrent
  | parent => exact absurd rfl hparent
  | name n => exact push_name back n

/-- So are all components of a route without steps up and leading `.`. -/
theorem foldl_push_of_notMem {r : Route} (back : Route) (hcurrent : .current ∉ r)
    (hparent : .parent ∉ r) :
    r.foldl push back = r.reverse ++ back := by
  induction r generalizing back with
  | nil => rfl
  | cons c r ih =>
    rw [List.mem_cons, not_or] at hcurrent hparent
    rw [List.foldl_cons, push_of_ne back (Ne.symm hcurrent.1) (Ne.symm hparent.1),
      ih _ hcurrent.2 hparent.2]
    simp

/-- **Normalizing changes nothing about a route without steps up** and leading `.`. -/
theorem normalize_of_notMem {r : Route} (hcurrent : .current ∉ r) (hparent : .parent ∉ r) :
    r.normalize = r := by
  rw [normalize, foldl_push_of_notMem [] hcurrent hparent, List.append_nil, List.reverse_reverse]

/-- So nothing about a route from the root along names. -/
theorem normalize_ofNames (names : List FileName) : (ofNames names).normalize = ofNames names :=
  normalize_of_notMem (by simp [ofNames]) (by simp [ofNames])

/-- The way back to the root, along names. -/
structure IsBack (back : Route) : Prop where
  getLast? : back.getLast? = some .root
  current_notMem : .current ∉ back
  parent_notMem : .parent ∉ back

/-- It stays one, whatever step is taken: a step up takes back a name or stays at the
root. -/
theorem IsBack.push {back : Route} (h : back.IsBack) (c : Component) : (push back c).IsBack := by
  obtain ⟨hlast, hcurrent, hparent⟩ := h
  by_cases hc : c = .current
  · rw [hc]
    exact ⟨hlast, hcurrent, hparent⟩
  by_cases hup : c = .parent
  · subst hup
    match back with
    | [] => cases hlast
    | .root :: back => exact ⟨hlast, hcurrent, hparent⟩
    | .current :: back => exact absurd List.mem_cons_self hcurrent
    | .parent :: back => exact absurd List.mem_cons_self hparent
    | .name n :: back =>
      refine ⟨?_, fun h => hcurrent (List.mem_cons_of_mem _ h),
        fun h => hparent (List.mem_cons_of_mem _ h)⟩
      cases back with
      | nil => cases hlast
      | cons c back =>
        rw [List.getLast?_cons_cons] at hlast
        exact hlast
  · rw [push_of_ne back hc hup]
    refine ⟨?_, ?_, ?_⟩
    · rw [List.getLast?_cons, hlast]
      rfl
    · simpa [Ne.symm hc] using hcurrent
    · simpa [Ne.symm hup] using hparent

theorem IsBack.foldl_push {back : Route} (h : back.IsBack) (r : Route) :
    (r.foldl Route.push back).IsBack := by
  induction r generalizing back with
  | nil => exact h
  | cons c r ih => exact ih (h.push c)

/-- **An absolute route has no step up left** when it is normalized. -/
theorem parent_notMem_normalize {r : Route} (habs : r.isAbsolute = true) :
    .parent ∉ r.normalize := by
  cases r with
  | nil => cases habs
  | cons c r =>
    obtain rfl : c = .root := by simpa [isAbsolute] using habs
    have hroot : IsBack [.root] := ⟨rfl, by simp, by simp⟩
    rw [normalize, List.mem_reverse]
    exact (hroot.foldl_push r).parent_notMem

/-- It is normalized already just if it has none. -/
theorem normalize_eq_self_iff {r : Route} (habs : r.isAbsolute = true) (hcurrent : .current ∉ r) :
    r.normalize = r ↔ .parent ∉ r := by
  refine ⟨fun h => ?_, normalize_of_notMem hcurrent⟩
  rw [← h]
  exact parent_notMem_normalize habs

/-- What is behind a route goes on from where it leads. -/
theorem normalize_append (r s : Route) :
    (r ++ s).normalize = (s.foldl push r.normalize.reverse).reverse := by
  rw [normalize, List.foldl_append, normalize, List.reverse_reverse]

/-- A step changes nothing, takes back the name before it, or is one more. -/
theorem push_cases (back : Route) (c : Component) :
    push back c = back ∨ (∃ n, back = .name n :: push back c) ∨ push back c = c :: back := by
  unfold push
  split
  · exact .inl rfl
  · exact .inr (.inl ⟨_, rfl⟩)
  · exact .inl rfl
  · exact .inr (.inr rfl)

/-- A step from a way back that is normalized leads to one that is. -/
theorem foldl_push_push {back : Route} (h : back.reverse.foldl push [] = back) (c : Component) :
    (push back c).reverse.foldl push [] = push back c := by
  rcases push_cases back c with hsame | ⟨n, hback⟩ | hmore
  · rw [hsame, h]
  · rw [hback, List.reverse_cons, List.foldl_append, List.foldl_cons, List.foldl_nil,
      push_name] at h
    exact (List.cons.inj h).2
  · rw [hmore, List.reverse_cons, List.foldl_append, h]
    exact hmore

/-- **Normalizing twice changes nothing more.** -/
theorem normalize_normalize (r : Route) : r.normalize.normalize = r.normalize := by
  have h (back : Route) (hback : back.reverse.foldl push [] = back) :
      (r.foldl push back).reverse.foldl push [] = r.foldl push back := by
    induction r generalizing back with
    | nil => exact hback
    | cons c r ih => exact ih _ (foldl_push_push hback c)
  rw [normalize, normalize, h [] rfl]

end Route

namespace Path

/-- No slash is left between the slashes of a path. -/
theorem notMem_of_mem_pieces {p : Path} {piece : List UInt8} (h : piece ∈ p.pieces) :
    slash ∉ piece :=
  notMem_of_mem_splitOn h

/-- Between the slashes stand steps up and plain names. -/
theorem of_mem_filterMap_pieces {p : Path} {c : Component}
    (h : c ∈ p.pieces.filterMap Component.ofPiece?) :
    c = .parent ∨ ∃ n : FileName, n.IsPlain ∧ c = .name n := by
  obtain ⟨piece, hpiece, hc⟩ := List.mem_filterMap.1 h
  have hslash : slash ∉ piece := notMem_of_mem_pieces hpiece
  rcases Component.ofPiece?_of_notMem hslash with h | h | ⟨n, hn, h⟩
  · rw [h] at hc
    cases hc
  · rw [h] at hc
    exact .inl (Option.some.inj hc).symm
  · rw [h] at hc
    exact .inr ⟨n, hn, (Option.some.inj hc).symm⟩

/-- The components of an absolute path: the root, then steps up and names. -/
theorem route_eq_of_isAbsolute {p : Path} (h : p.isAbsolute = true) :
    ∃ steps : List Component, p.route = .root :: steps ∧
      ∀ c ∈ steps, c = .parent ∨ ∃ n : FileName, n.IsPlain ∧ c = .name n :=
  ⟨_, by rw [route, if_pos h], fun _ => of_mem_filterMap_pieces⟩

/-- **An absolute path normalizes to a route from the root.** -/
theorem location_eq_ofNames {p : Path} (h : p.isAbsolute = true) :
    ∃ names, (∀ n ∈ names, n.IsPlain) ∧ p.location = .ofNames names := by
  obtain ⟨steps, hroute, hsteps⟩ := route_eq_of_isAbsolute h
  obtain ⟨names, hplain, hfold⟩ := Route.foldl_push [] hsteps (by simp)
  refine ⟨names, hplain, ?_⟩
  rw [location, hroute, Route.normalize, List.foldl_cons]
  exact (congrArg List.reverse hfold).trans (List.reverse_reverse _)

/-- No piece between slashes stands for the root, so a path starts there just if its
route does. -/
theorem isAbsolute_route (p : Path) : p.route.isAbsolute = p.isAbsolute := by
  unfold route
  split_ifs with habs hlead
  · rw [habs]
    rfl
  · rw [Bool.eq_false_iff.2 habs]
    rfl
  · rw [Bool.eq_false_iff.2 habs]
    refine beq_eq_false_iff_ne.2 fun hhead => ?_
    obtain ⟨piece, -, hpiece⟩ := List.mem_filterMap.1 (List.mem_of_mem_head? hhead)
    unfold Component.ofPiece? at hpiece
    split_ifs at hpiece <;> cases hpiece

/-- Paths of one route are absolute together. -/
theorem isAbsolute_eq_of_route {p q : Path} (h : p.route = q.route) :
    p.isAbsolute = q.isAbsolute := by
  rw [← isAbsolute_route, h, isAbsolute_route]

/-! ## Texts as paths -/

/-- The written form of a character starts with the byte of the slash only if it
is the slash. -/
theorem exists_cons_utf8EncodeChar (c : Char) :
    ∃ first rest, String.utf8EncodeChar c = first :: rest ∧ (first = slash ↔ c = '/') := by
  have hchar : c = '/' ↔ c.val.toNat = 47 := by
    rw [Char.ext_iff, ← UInt32.toNat_inj]
    rfl
  simp only [hchar, String.utf8EncodeChar, slash]
  split_ifs <;> refine ⟨_, _, rfl, ?_⟩ <;>
    simp only [← UInt8.toNat_inj, UInt8.toNat_ofNat', UInt8.reduceToNat] <;> omega

/-- **A text is an absolute path if a slash is in front.** -/
theorem isAbsolute_ofString {s : String} :
    (ofString s).isAbsolute = (s.toList.head? == some '/') := by
  rw [isAbsolute, ofString, Text.encode]
  cases s.toList with
  | nil => rfl
  | cons c chars =>
    obtain ⟨first, rest, hform, hslash⟩ := exists_cons_utf8EncodeChar c
    rw [List.flatMap_cons, hform, Bool.eq_iff_iff]
    simpa using hslash

end Path

end BuildMarkers
