import BuildMarkers.Proofs.Path.Plain
/-!
# The canonical spelling of a path

Normalizing simplifies a route and does nothing else: a `.` says nothing, a step up takes
back the name before it, and above the root there is nothing (`Route.Simplifies`). It leaves
off only where nothing is left to simplify. Then the route goes along plain names, from the
root or from some steps up (`Route.IsCanonical`), and there is one such route to which
simplifying leads (`Path.location_eq_iff`).

The components of a joined path are those of the one and of the other (`Path.route_join`), so
what a path leads to behind another one depends on no more than where this one leads
(`Path.location_join`).
-/

namespace BuildMarkers

namespace Route

variable {r s : Route} {c : Component} {names : List FileName}

/-- The second route is the first with something taken out that changes nothing about
where it leads. -/
inductive Simplifies : Route → Route → Prop
  /-- A `.` says nothing. -/
  | current (r s : Route) : Simplifies (r ++ .current :: s) (r ++ s)
  /-- A step up takes back the name before it. -/
  | name (r s : Route) (n : FileName) : Simplifies (r ++ .name n :: .parent :: s) (r ++ s)
  /-- Above the root there is nothing. -/
  | root (r s : Route) : Simplifies (r ++ .root :: .parent :: s) (r ++ .root :: s)

/-- The route goes along plain names, from the root or from some steps up. -/
inductive IsCanonical : Route → Prop
  | absolute {names : List FileName} : (∀ n ∈ names, n.IsPlain) → IsCanonical (ofNames names)
  | relative (ups : ℕ) {names : List FileName} : (∀ n ∈ names, n.IsPlain) →
      IsCanonical (List.replicate ups .parent ++ names.map .name)

/-! ## Simplifying -/

/-- A step on the way simplifies the route or is one more. -/
theorem simplifies_push (back : Route) (c : Component) (s : Route) :
    Relation.ReflTransGen Simplifies (back.reverse ++ c :: s) ((push back c).reverse ++ s) := by
  unfold push
  split
  · exact .single (.current _ _)
  · next n back =>
    rw [List.reverse_cons, List.append_assoc]
    exact .single (.name _ _ n)
  · next back =>
    rw [List.reverse_cons, List.append_assoc, List.append_assoc]
    exact .single (.root _ _)
  · rw [List.reverse_cons, List.append_assoc]
    exact .refl

/-- **Normalizing takes nothing out that says anything.** -/
theorem simplifies_normalize (r : Route) : Relation.ReflTransGen Simplifies r r.normalize := by
  have h (back : Route) : Relation.ReflTransGen Simplifies (back.reverse ++ r)
      (r.foldl push back).reverse := by
    induction r generalizing back with
    | nil => rw [List.append_nil, List.foldl_nil]
    | cons c r ih => exact (simplifies_push back c r).trans (ih _)
  exact h []

/-- What is taken out does not matter to where a route leads. -/
theorem Simplifies.normalize_eq (h : Simplifies r s) : r.normalize = s.normalize := by
  cases h with
  | current r s => rw [normalize_append, normalize_append, List.foldl_cons, push]
  | name r s n =>
    rw [normalize_append, normalize_append, List.foldl_cons, List.foldl_cons, push_name, push]
  | root r s =>
    have hroot (back : Route) : push back .root = .root :: back :=
      push_of_ne back (by simp) (by simp)
    rw [normalize_append, normalize_append, List.foldl_cons, List.foldl_cons,
      List.foldl_cons, hroot, push]

theorem normalize_eq_of_simplifies (h : Relation.ReflTransGen Simplifies r s) :
    r.normalize = s.normalize := by
  induction h with
  | refl => rfl
  | tail _ hstep ih => rw [ih, hstep.normalize_eq]

/-! ## Canonical routes -/

theorem push_replicate (ups : ℕ) :
    push (List.replicate ups .parent) .parent = List.replicate (ups + 1) .parent := by
  cases ups <;> rfl

/-- **A step leads from a canonical route to one.** -/
theorem IsCanonical.push (h : r.IsCanonical)
    (hc : c = .parent ∨ ∃ n : FileName, n.IsPlain ∧ c = .name n) :
    IsCanonical (push r.reverse c).reverse := by
  rcases hc with rfl | ⟨n, hn, rfl⟩
  · cases h with
    | @absolute names hplain =>
      rcases List.eq_nil_or_concat' names with rfl | ⟨names, m, rfl⟩
      · exact .absolute hplain
      · rw [ofNames_concat, List.reverse_append]
        exact (List.reverse_reverse (ofNames names)).symm ▸ .absolute (forall_mem_concat.1 hplain).1
    | @relative ups names hplain =>
      rcases List.eq_nil_or_concat' names with rfl | ⟨names, m, rfl⟩
      · rw [List.map_nil, List.append_nil, List.reverse_replicate, push_replicate,
          List.reverse_replicate]
        simpa using IsCanonical.relative (ups + 1) hplain
      · rw [List.map_append, ← List.append_assoc, List.reverse_append]
        exact (List.reverse_reverse _).symm ▸ .relative ups (forall_mem_concat.1 hplain).1
  · rw [push_name, List.reverse_cons, List.reverse_reverse]
    cases h with
    | absolute hplain =>
      rw [← ofNames_concat]
      exact .absolute (forall_mem_concat.2 ⟨hplain, hn⟩)
    | relative ups hplain =>
      rw [List.append_assoc, ← List.map_singleton, ← List.map_append]
      exact .relative ups (forall_mem_concat.2 ⟨hplain, hn⟩)

/-- So do any number of steps. -/
theorem IsCanonical.foldl_push (h : r.IsCanonical)
    (hs : ∀ c ∈ s, c = .parent ∨ ∃ n : FileName, n.IsPlain ∧ c = .name n) :
    IsCanonical (s.foldl Route.push r.reverse).reverse := by
  induction s generalizing r with
  | nil => rwa [List.foldl_nil, List.reverse_reverse]
  | cons c s ih =>
    obtain ⟨hc, hs⟩ := List.forall_mem_cons.1 hs
    simpa using ih (h.push hc) hs

/-- **A canonical route stays as it is.** -/
theorem IsCanonical.normalize_eq (h : r.IsCanonical) : r.normalize = r := by
  cases h with
  | absolute => exact normalize_ofNames _
  | @relative ups names =>
    have hups : normalize (List.replicate ups .parent) = List.replicate ups .parent := by
      induction ups with
      | zero => rfl
      | succ ups ih =>
        rw [List.replicate_succ', normalize_append, ih, List.reverse_replicate, List.foldl_cons,
          List.foldl_nil, push_replicate, List.reverse_replicate, List.replicate_succ']
    rw [normalize_append, hups, foldl_push_of_notMem _ (by simp) (by simp), List.reverse_append,
      List.reverse_reverse, List.reverse_reverse]

theorem IsCanonical.current_notMem (h : r.IsCanonical) : .current ∉ r := by
  cases h <;> simp [ofNames]

/-- Steps up stand in front, and only where the root does not. -/
theorem IsCanonical.exists_upward (h : r.IsCanonical) :
    ∃ ups rest, r = List.replicate ups .parent ++ rest ∧ .parent ∉ rest ∧
      (r.isAbsolute = true → ups = 0) := by
  cases h with
  | @absolute names => exact ⟨0, ofNames names, rfl, by simp [ofNames], fun _ => rfl⟩
  | @relative ups names =>
    refine ⟨ups, names.map .name, rfl, by simp, fun habs => ?_⟩
    cases ups with
    | zero => rfl
    | succ ups => cases habs

/-- Normalizing adds no component. -/
theorem mem_of_mem_foldl_push {back : Route} (h : c ∈ r.foldl push back) : c ∈ back ∨ c ∈ r := by
  induction r generalizing back with
  | nil => exact .inl h
  | cons d r ih =>
    rcases ih h with hback | hr
    · rcases push_cases back d with hsame | ⟨n, htaken⟩ | hmore
      · exact .inl (hsame ▸ hback)
      · exact .inl (htaken ▸ List.mem_cons_of_mem _ hback)
      · rw [hmore, List.mem_cons] at hback
        exact hback.elim (fun hd => .inr (hd ▸ List.mem_cons_self)) .inl
    · exact .inr (List.mem_cons_of_mem _ hr)

/-- Where a route leads behind another one depends on where this one leads. A leading `.`
is of no influence, whether joining drops it or not. -/
theorem normalize_join (r : Route) (hs : s.isAbsolute = false) :
    (r.join s).normalize = (s.foldl push r.normalize.reverse).reverse := by
  have hdrop (back : Route) : s.dropCurrent.foldl push back = s.foldl push back := by
    unfold dropCurrent
    split
    · rfl
    · rfl
  rw [join, hs, if_neg (by simp)]
  split_ifs with hempty
  · rw [List.isEmpty_iff.1 hempty]
    rfl
  · rw [normalize_append, hdrop]

/-- **Normalizing goes with joining.** -/
theorem normalize_join_normalize (r s : Route) :
    (r.normalize.join s).normalize = (r.join s).normalize := by
  cases habs : s.isAbsolute with
  | true => rw [join, join, if_pos habs, if_pos habs]
  | false => rw [normalize_join _ habs, normalize_join _ habs, normalize_normalize]

end Route

namespace Path

variable {p q : Path} {c : Component}

/-! ## The components of a path -/

/-- The component that stands in front of the steps: the root, or a `.`. -/
def lead (p : Path) : Route :=
  if p.isAbsolute then [.root] else if p.splitLead.1 = [dot] then [.current] else []

/-- The components between the slashes. -/
def steps (p : Path) : Route := p.pieces.filterMap Component.ofPiece?

theorem route_eq (p : Path) : p.route = p.lead ++ p.steps := by
  unfold route lead
  split_ifs <;> rfl

/-- Nothing of a relative path is the root. -/
theorem root_notMem_route (h : p.isAbsolute = false) : .root ∉ p.route := by
  have hlead : .root ∉ p.lead := by
    rw [lead, h, if_neg (by simp)]
    split_ifs <;> simp
  rw [route_eq, List.mem_append, not_or]
  refine ⟨hlead, fun hmem => ?_⟩
  rcases of_mem_filterMap_pieces hmem with hparent | ⟨n, -, hname⟩
  · cases hparent
  · cases hname

/-- What a relative path has behind a leading `.` are its steps. -/
theorem dropCurrent_route (h : p.isAbsolute = false) : p.route.dropCurrent = p.steps := by
  rw [route_eq, lead, h, if_neg (by simp)]
  split_ifs
  · rfl
  · rw [List.nil_append]
    unfold Route.dropCurrent
    split
    · next rest hsteps =>
      have hmem : .current ∈ p.steps := hsteps ▸ List.mem_cons_self
      rcases of_mem_filterMap_pieces hmem with hparent | ⟨n, -, hname⟩
      · cases hparent
      · cases hname
    · rfl

/-- Two bytes decide what stands in front. -/
theorem lead_cons (b : UInt8) (rest : List UInt8) :
    lead ⟨b :: rest⟩ =
      if b = slash then [.root]
      else if b = dot ∧ (rest = [] ∨ rest.head? = some slash) then [.current]
      else [] := by
  simp only [lead, isAbsolute, splitLead, List.head?_cons, beq_iff_eq, Option.some.injEq,
    Bool.and_eq_true, decide_eq_true_eq, Bool.or_eq_true, List.isEmpty_iff]
  split_ifs <;> simp_all [dot]

/-- A path that is not empty has a component. -/
theorem route_ne_nil (h : p.bytes ≠ []) : p.route ≠ [] := by
  obtain ⟨bytes⟩ := p
  obtain ⟨b, rest, rfl⟩ := List.exists_cons_of_ne_nil h
  rw [route_eq, lead_cons]
  split_ifs with hslash hdot
  · simp
  · simp
  · -- the first piece starts with a byte that makes it a step
    obtain ⟨first, others, hsplit⟩ :=
      List.exists_cons_of_ne_nil (List.splitOnP_ne_nil (· == slash) rest)
    have hpieces : pieces ⟨b :: rest⟩ = (b :: first) :: others := by
      rw [pieces, List.splitOn, List.splitOnP_cons_eq_if_modifyHead, hsplit]
      simp [hslash]
    have hnamed : b :: first ≠ [dot] := by
      rintro heq
      obtain ⟨rfl, rfl⟩ := List.cons.inj heq
      refine hdot ⟨rfl, ?_⟩
      cases rest with
      | nil => exact .inl rfl
      | cons x rest =>
        by_contra hx
        rw [List.splitOnP_cons_eq_if_modifyHead, if_neg (by simpa using hx)] at hsplit
        obtain ⟨next, others, hrest⟩ :=
          List.exists_cons_of_ne_nil (List.splitOnP_ne_nil (· == slash) rest)
        simp [hrest] at hsplit
    have hstep : Component.ofPiece? (b :: first) ≠ none := by
      rw [Component.ofPiece?, isIdle, if_neg (by simp [hnamed])]
      split_ifs <;> simp
    obtain ⟨c, hc⟩ := Option.ne_none_iff_exists'.1 hstep
    simp [steps, hpieces, hc]

/-- Whatever stands behind a slash adds its steps. -/
theorem route_append_slash (front back : List UInt8) :
    route ⟨front ++ slash :: back⟩ = route ⟨front ++ [slash]⟩ ++ steps ⟨back⟩ := by
  have hlead : lead ⟨front ++ slash :: back⟩ = lead ⟨front ++ [slash]⟩ := by
    rcases front with - | ⟨b, - | ⟨c, front⟩⟩
    · rfl
    · simp [lead_cons]
    · simp [lead_cons]
  have hsteps : steps ⟨front ++ slash :: back⟩ = steps ⟨front ++ [slash]⟩ ++ steps ⟨back⟩ := by
    rw [steps, pieces, List.splitOn_append_cons_self, List.filterMap_append, steps, pieces,
      List.splitOn_append_cons_self, List.filterMap_append]
    simp [steps, pieces, Component.ofPiece?, isIdle]
  rw [route_eq, route_eq, hlead, hsteps, List.append_assoc]

/-- A slash at the end adds nothing. -/
theorem route_concat_slash {front : List UInt8} (h : front ≠ []) :
    route ⟨front ++ [slash]⟩ = route ⟨front⟩ := by
  have hlead : lead ⟨front ++ [slash]⟩ = lead ⟨front⟩ := by
    rcases front with - | ⟨b, - | ⟨c, front⟩⟩
    · exact absurd rfl h
    · simp [lead_cons]
    · simp [lead_cons]
  have hsteps : steps ⟨front ++ [slash]⟩ = steps ⟨front⟩ := by
    rw [steps, pieces, List.splitOn_append_cons_self, List.filterMap_append]
    simp [steps, pieces, Component.ofPiece?, isIdle]
  rw [route_eq, route_eq, hlead, hsteps]

/-- **The components of a joined path** are those of the one and of the other, as far as the
other is relative. -/
theorem route_join (p q : Path) : (p.join q).route = p.route.join q.route := by
  by_cases habs : q.isAbsolute = true
  · rw [join, if_pos habs, Route.join, isAbsolute_route, if_pos habs]
  have hrelative : q.isAbsolute = false := Bool.eq_false_iff.2 habs
  by_cases hempty : p.bytes = []
  · obtain ⟨bytes⟩ := p
    obtain rfl : bytes = [] := hempty
    rw [join, if_neg habs, if_pos (by rfl), Route.join, isAbsolute_route, if_neg habs]
    rfl
  · rw [Route.join, isAbsolute_route, if_neg habs, if_neg (by simpa using route_ne_nil hempty),
      dropCurrent_route hrelative, join, if_neg habs]
    by_cases hslash : p.bytes.getLast? = some slash
    · obtain ⟨front, hfront⟩ := List.getLast?_eq_some_iff.1 hslash
      have hp : p.route = route ⟨front ++ [slash]⟩ := by rw [← hfront]
      rw [if_pos (by simp [hslash]), hfront, List.append_assoc, List.singleton_append,
        route_append_slash, hp]
    · rw [if_neg (by simp [hempty, hslash]), route_append_slash, route_concat_slash hempty]

/-! ## The canonical path -/

/-- The path in the spelling that normalizing gives it. -/
def normalized (p : Path) : Path := p.location.toPath

/-- The path goes along canonical components and is spelled by them and nothing else. -/
structure IsCanonical (p : Path) : Prop where
  route : p.route.IsCanonical
  toPath_route : p.route.toPath = p

/-- **Where a path leads is a canonical route.** -/
theorem isCanonical_location (p : Path) : p.location.IsCanonical := by
  have hsteps : ∀ c ∈ p.steps, c = .parent ∨ ∃ n : FileName, n.IsPlain ∧ c = .name n :=
    fun _ => of_mem_filterMap_pieces
  have hroot : Route.IsCanonical [.root] := .absolute (List.forall_mem_nil _)
  have hnone : Route.IsCanonical [] := .relative 0 (List.forall_mem_nil _)
  rw [location, Route.normalize, route_eq, List.foldl_append, lead]
  split_ifs
  · exact hroot.foldl_push hsteps
  · exact hnone.foldl_push hsteps
  · exact hnone.foldl_push hsteps

/-- It starts at the root just if the path does. -/
theorem isAbsolute_location (p : Path) : p.location.isAbsolute = p.isAbsolute := by
  cases habs : p.isAbsolute with
  | true =>
    obtain ⟨names, -, hnames⟩ := location_eq_ofNames habs
    rw [hnames]
    rfl
  | false =>
    rw [Route.isAbsolute, beq_eq_false_iff_ne]
    intro hhead
    have hmem := List.mem_reverse.1 (List.mem_of_mem_head? hhead)
    rcases Route.mem_of_mem_foldl_push hmem with hback | hroute
    · cases hback
    · exact root_notMem_route habs hroute

/-- A step that is spelled is read back. -/
theorem route_path (h : c = .parent ∨ ∃ n : FileName, n.IsPlain ∧ c = .name n) :
    c.path.route = [c] := by
  rcases h with rfl | ⟨⟨bytes⟩, hn, rfl⟩
  · decide
  · obtain ⟨b, rest, rfl⟩ := List.exists_cons_of_ne_nil hn.ne_nil
    have hslash : slash ≠ b ∧ slash ∉ rest := not_or.1 fun h => hn.slash_notMem (List.mem_cons.2 h)
    have hlead : lead ⟨b :: rest⟩ = [] := by
      rw [lead_cons, if_neg (Ne.symm hslash.1), if_neg]
      rintro ⟨rfl, rfl | hhead⟩
      · exact hn.ne_dot rfl
      · exact hslash.2 (List.mem_of_mem_head? hhead)
    have hsteps : steps ⟨b :: rest⟩ = [.name ⟨b :: rest⟩] := by
      rw [steps, pieces, List.splitOn_eq_singleton hn.slash_notMem,
        List.filterMap_cons_some hn.ofPiece?_eq, List.filterMap_nil]
    rw [Component.path, route_eq, hlead, hsteps, List.nil_append]

/-- So are steps one after the other. -/
theorem route_toPath_of_steps {steps : Route}
    (hsteps : ∀ c ∈ steps, c = .parent ∨ ∃ n : FileName, n.IsPlain ∧ c = .name n) :
    steps.toPath.route = steps := by
  induction steps using List.reverseRecOn with
  | nil => rfl
  | append_singleton steps c ih =>
    obtain ⟨hsteps, hc⟩ := forall_mem_concat.1 hsteps
    rw [Route.toPath_concat, route_join, ih hsteps, route_path hc, Route.join]
    rcases hc with rfl | ⟨n, -, rfl⟩
    all_goals
      split_ifs with habs hempty
      · cases habs
      · rw [List.isEmpty_iff.1 hempty, List.nil_append]
      · rfl

/-- **The spelling of a canonical route is read back.** -/
theorem route_toPath_of_isCanonical {r : Route} (h : r.IsCanonical) : r.toPath.route = r := by
  cases h with
  | absolute hplain => exact Route.route_toPath hplain
  | @relative ups names hplain =>
    refine route_toPath_of_steps fun c hc => ?_
    rcases List.mem_append.1 hc with hc | hc
    · exact .inl (List.eq_of_mem_replicate hc)
    · obtain ⟨n, hn, rfl⟩ := List.mem_map.1 hc
      exact .inr ⟨n, hplain n hn, rfl⟩

theorem route_normalized (p : Path) : p.normalized.route = p.location :=
  route_toPath_of_isCanonical (isCanonical_location p)

theorem isCanonical_normalized (p : Path) : p.normalized.IsCanonical := by
  refine ⟨?_, ?_⟩
  · rw [route_normalized]
    exact isCanonical_location p
  · rw [route_normalized, normalized]

/-- The spelling leads where the path does. -/
theorem location_normalized (p : Path) : p.normalized.location = p.location := by
  rw [location, route_normalized, (isCanonical_location p).normalize_eq]

/-- **What a path leads to behind another one depends on where this one leads.** -/
theorem location_join (p q : Path) : (p.join q).location = (p.location.join q.route).normalize := by
  rw [location, route_join, location, Route.normalize_join_normalize]

/-- **There is one canonical route to which simplifying leads**, and normalizing finds it. -/
theorem location_eq_iff {r : Route} :
    p.location = r ↔ r.IsCanonical ∧ Relation.ReflTransGen Route.Simplifies p.route r := by
  constructor
  · rintro rfl
    exact ⟨isCanonical_location p, Route.simplifies_normalize p.route⟩
  · rintro ⟨hcanonical, hsimplifies⟩
    rw [location, Route.normalize_eq_of_simplifies hsimplifies, hcanonical.normalize_eq]

/-- **A normalized path is canonical, and normalizing goes with joining.** It has no `.`, it has
steps up in front only, which an absolute one has not, and it is absolute just if the path is.
Normalizing it again changes nothing, and whatever is joined to it leads where it leads from
the path itself. It is the one canonical path that is left when the components of the path are
simplified. -/
theorem normalized_canonical (p q : Path) :
    (.current ∉ p.normalized.route ∧
      (∃ ups rest, p.normalized.route = List.replicate ups .parent ++ rest ∧ .parent ∉ rest ∧
        (p.isAbsolute = true → ups = 0)) ∧
      p.normalized.isAbsolute = p.isAbsolute) ∧
    p.normalized.normalized = p.normalized ∧
    (p.join q).normalized = (p.normalized.join q).normalized ∧
    ∀ c : Path, c = p.normalized ↔
      c.IsCanonical ∧ Relation.ReflTransGen Route.Simplifies p.route c.route := by
  refine ⟨⟨?_, ?_, ?_⟩, ?_, ?_, fun c => ?_⟩
  · rw [route_normalized]
    exact (isCanonical_location p).current_notMem
  · rw [route_normalized, ← isAbsolute_location]
    exact (isCanonical_location p).exists_upward
  · rw [← isAbsolute_route, route_normalized, isAbsolute_location]
  · rw [normalized, location_normalized, normalized]
  · rw [normalized, normalized, location_join, location_join, location_normalized]
  · constructor
    · rintro rfl
      rw [route_normalized]
      exact ⟨isCanonical_normalized p, (location_eq_iff.1 rfl).2⟩
    · rintro ⟨hcanonical, hsimplifies⟩
      rw [normalized, location_eq_iff.2 ⟨hcanonical.route, hsimplifies⟩, hcanonical.toPath_route]

/-- Steps up that lead above the root end there, behind a normalized path as well. -/
theorem normalized_canonical_climbing :
    let p := ofString "/a/b/.."
    let q := ofString "../../c/./d"
    p.isAbsolute = true ∧ p.normalized = ofString "/a" ∧ .parent ∉ p.normalized.route ∧
      (p.join q).normalized = ofString "/c/d" ∧
        (p.normalized.join q).normalized = ofString "/c/d" := by
  intro p q
  obtain ⟨⟨-, ⟨ups, rest, hroute, hrest, hups⟩, -⟩, -, hjoin, -⟩ := normalized_canonical p q
  have habs : p.isAbsolute = true := by decide
  have hnormalized : (p.join q).normalized = ofString "/c/d" := by decide
  refine ⟨habs, by decide, ?_, hnormalized, hjoin ▸ hnormalized⟩
  rw [hroute, hups habs]
  exact hrest

end Path

end BuildMarkers
