import BuildMarkers.Proofs.Workspace.Address
/-!
# Trees that calls build

A call that names its resource by the text of a path (`Call.IsSpelled`) adds
resources one by one: missing folders from the top down, then the resource
itself, each of them a new child of a container (`insert_extends`). So a tree grows
in one way only, by a resource that fits at an address that is free (`IsBuilt`),
and whatever this keeps holds of every tree that calls build, the failing ones
among them included (`isBuilt_applyAll`). What is below a project is itself no project,
unless a call asks for one there (`kind_ne_project_of_applyAll`).
-/

namespace BuildMarkers

variable {t t' u : Tree} {a : Address} {r s parent : Resource} {name project : String}
  {names segments : List String} {kind : Kind} {link : Link} {call : Call}
  {made : Resource → Prop}

namespace Tree

/-- A name that can stand between the slashes of a path below a project. -/
structure IsSegment (s : String) : Prop where
  ne_empty : s ≠ ""
  ne_dot : s ≠ "."
  slash_notMem : '/' ∉ s.toList

/-- What is between slashes in a path, but for empty pieces and `.`. -/
theorem segmentsOf_eq (path : String) :
    segmentsOf path =
      ((path.toList.splitOn '/').map String.ofList).filter fun s => s ≠ "" ∧ s ≠ "." := by
  rw [segmentsOf, Text.segments, List.splitOn, List.filter_map, List.filter_filter, List.filter_map]
  congr 1
  refine List.filter_congr fun piece _ => ?_
  cases piece <;> simp

theorem isSegment_of_mem_segmentsOf {path s : String} (h : s ∈ segmentsOf path) : IsSegment s := by
  obtain ⟨hmem, hdot⟩ := List.mem_filter.1 h
  obtain ⟨hempty, hslash⟩ := Text.mem_segments hmem
  exact ⟨hempty, of_decide_eq_true hdot, fun hs => by simpa using hslash _ hs⟩

/-- **The segments of paths are the lists of names that can stand in one.** -/
theorem exists_eq_segmentsOf_iff :
    (∃ path, segments = segmentsOf path) ↔ ∀ s ∈ segments, IsSegment s := by
  constructor
  · rintro ⟨path, rfl⟩ s hs
    exact isSegment_of_mem_segmentsOf hs
  · intro h
    have hsplit : Text.segments (· = '/') ("/".intercalate segments) = segments :=
      Text.segments_intercalate rfl fun s hs => ⟨(h s hs).ne_empty, fun c hc =>
        decide_eq_false fun hslash => (h s hs).slash_notMem (hslash ▸ hc)⟩
    refine ⟨"/".intercalate segments, ?_⟩
    rw [segmentsOf, hsplit, List.filter_eq_self.2 fun s hs => decide_eq_true (h s hs).ne_dot]

instance (s : String) : Decidable (IsSegment s) :=
  decidable_of_iff (s ≠ "" ∧ s ≠ "." ∧ '/' ∉ s.toList)
    ⟨fun ⟨hempty, hdot, hslash⟩ => ⟨hempty, hdot, hslash⟩,
      fun h => ⟨h.ne_empty, h.ne_dot, h.slash_notMem⟩⟩

end Tree

namespace Call

/-- The call is for a project, or names what is below one by the text of a path. -/
def IsSpelled : Call → Prop
  | .project _ _ => True
  | .resource _ segments _ _ => ∃ path, segments = Tree.segmentsOf path

instance : (call : Call) → Decidable call.IsSpelled
  | .project _ _ => .isTrue trivial
  | .resource _ segments _ _ =>
    decidable_of_iff (∀ s ∈ segments, Tree.IsSegment s) Tree.exists_eq_segmentsOf_iff.symm

end Call

/-- The names down to the resource can stand in a path. -/
def Resource.IsSpelled (r : Resource) : Prop := ∀ s ∈ r.address.segments, Tree.IsSegment s

namespace Tree

/-! ## One more resource -/

/-- The second tree has one more resource, the child of a container at an address
that was free. -/
inductive Gains (made : Resource → Prop) (t : Tree) : Tree → Prop
  | push {parent : Resource} {name : String} {kind : Kind} {link : Link} :
      t.get? parent.address = some parent → parent.isContainer = true →
      t.get? (parent.address.child name) = none → made (parent.below name kind link) →
      Gains made t (t.push parent name kind link)

/-- The second tree has more resources, one after the other. -/
def Extends (made : Resource → Prop) : Tree → Tree → Prop := Relation.ReflTransGen (Gains made)

/-- What is in the second tree was in the first or is made, below a project. -/
theorem Extends.mem_or (h : t.Extends made t') (hr : r ∈ t'.resources) :
    r ∈ t.resources ∨ made r ∧ r.address.segments ≠ [] := by
  induction h with
  | refl => exact .inl hr
  | tail _ hgains ih =>
    cases hgains with
    | push _ _ _ hmade =>
      rcases List.mem_append.1 hr with hr | hr
      · exact ih hr
      · rw [List.mem_singleton.1 hr]
        exact .inr ⟨hmade, Address.segments_child_ne_nil⟩

/-- What a call for a resource makes: that resource, and plain folders above
it. -/
def Made (project : String) (segments : List String) (kind : Kind) (link : Link)
    (r : Resource) : Prop :=
  r.address.project = project ∧ ∃ more, segments = r.address.segments ++ more ∧
    if more = [] then r.kind = kind ∧ r.link = link else r.kind = .folder ∧ r.link = .none

/-- On the way down the missing folders are made. -/
theorem makeFolders_extends {above : List String} (hparent : t.get? ⟨project, above⟩ = some parent)
    (hcontainer : parent.isContainer = true) (h : t.makeFolders parent names = .ok (t', r)) :
    t.Extends (Made project (above ++ names ++ [name]) kind link) t' := by
  induction names generalizing t parent above with
  | nil =>
    cases h
    exact .refl
  | cons folder names ih =>
    have haddress := address_of_get? hparent
    rw [makeFolders] at h
    cases hchild : t.get? (parent.address.child folder) with
    | none =>
      simp only [hchild] at h
      have hbelow : (t.push parent folder .folder .none).get? ⟨project, above ++ [folder]⟩ =
          some (parent.below folder .folder .none) := by
        have hfolder : parent.address.child folder = ⟨project, above ++ [folder]⟩ := by
          rw [haddress]
          rfl
        exact hfolder ▸ get?_push_self hchild
      have hrest := ih hbelow rfl h
      simp only [List.append_assoc, List.singleton_append] at hrest ⊢
      refine .head (.push (haddress ▸ hparent) hcontainer hchild
        ⟨?_, names ++ [name], ?_, ?_⟩) hrest
      · simp [Resource.below, haddress]
      · simp [Resource.below, haddress]
      · rw [if_neg (by simp)]
        exact ⟨rfl, rfl⟩
    | some s =>
      simp only [hchild] at h
      split_ifs at h with hfile
      have hnext : t.get? ⟨project, above ++ [folder]⟩ = some s := by
        rw [haddress] at hchild
        exact hchild
      simpa using ih hnext (by simpa using hfile) h

/-- At its end the child is made. -/
theorem addChild_extends {above : List String} (hparent : t.get? ⟨project, above⟩ = some parent)
    (hcontainer : parent.isContainer = true) (h : t.addChild parent name kind link = .ok t') :
    t.Extends (Made project (above ++ [name]) kind link) t' := by
  have haddress := address_of_get? hparent
  unfold addChild at h
  cases hchild : t.get? (parent.address.child name) with
  | none =>
    simp only [hchild, Except.ok.injEq] at h
    subst h
    refine .single (.push (haddress ▸ hparent) hcontainer hchild ⟨?_, [], ?_, rfl, rfl⟩)
    · simp [Resource.below, haddress]
    · simp [Resource.below, haddress]
  | some s =>
    simp only [hchild] at h
    split_ifs at h with hsame
    cases h
    exact .refl

/-- **A call for a resource makes the missing folders above it and then the
resource**, if that is missing too. -/
theorem insert_extends (ht : t.IsGrown) (h : t.insert project segments kind link = .ok t') :
    t.Extends (Made project segments kind link) t' := by
  obtain ⟨above, name, root, u, parent, rfl, hreaches, hchild⟩ := exists_reaches_of_insert ht h
  exact (makeFolders_extends hreaches.get?_root hreaches.isContainer_root hreaches.folders).trans
    (addChild_extends hreaches.get?_parent hreaches.isContainer_parent hchild)

/-! ## What calls build -/

/-- What may be added to a tree: a project, or the child of a container that is
there. -/
inductive Fits (t : Tree) : Resource → Prop
  | root {name : String} {location : Path} : Fits t (.root name location.location)
  | child {parent : Resource} {name : String} {kind : Kind} {link : Link} :
      t.get? parent.address = some parent → parent.isContainer = true →
      (parent.below name kind link).IsSpelled → Fits t (parent.below name kind link)

/-- The tree is made of resources that were added one after the other, each at an
address that was free. -/
inductive IsBuilt : Tree → Prop
  | empty : IsBuilt .empty
  | append {t : Tree} {r : Resource} : IsBuilt t → t.get? r.address = none → t.Fits r →
      IsBuilt ⟨t.resources ++ [r]⟩

theorem Fits.placed (h : t.Fits r) : t.Placed r := by
  cases h with
  | root => exact .inl ⟨rfl, rfl⟩
  | child hparent hcontainer _ => exact .inr ⟨_, _, hparent, hcontainer, rfl⟩

theorem Fits.isSpelled (h : t.Fits r) : r.IsSpelled := by
  cases h with
  | root => exact fun s hs => absurd hs List.not_mem_nil
  | child _ _ hspelled => exact hspelled

theorem IsBuilt.isGrown (h : t.IsBuilt) : t.IsGrown := by
  induction h with
  | empty => exact isGrown_empty
  | append _ hfree hfits ih => exact ih.append hfree hfits.placed

/-- **The names in a built tree can stand in a path.** -/
theorem IsBuilt.isSegment (h : t.IsBuilt) (hr : r ∈ t.resources) :
    ∀ s ∈ r.address.segments, IsSegment s := by
  induction h with
  | empty => cases hr
  | append _ _ hfits ih =>
    rcases List.mem_append.1 hr with hr | hr
    · exact ih hr
    · rw [List.mem_singleton.1 hr]
      exact hfits.isSpelled

theorem IsBuilt.isSegment_of_isSome (h : t.IsBuilt) (ha : (t.get? a).isSome) :
    ∀ s ∈ a.segments, IsSegment s := by
  obtain ⟨r, hr⟩ := Option.isSome_iff_exists.1 ha
  obtain rfl := address_of_get? hr
  exact h.isSegment (mem_of_get? hr)

/-- What stands at the address of a project lies at the location of some path. -/
theorem IsBuilt.exists_root (h : t.IsBuilt) (hr : t.get? (.ofProject name) = some r) :
    ∃ location : Path, r = .root name location.location := by
  induction h with
  | empty => cases hr
  | append _ _ hfits ih =>
    rw [get?_append_singleton, Option.or_eq_some_iff] at hr
    rcases hr with hr | ⟨-, hr⟩
    · exact ih hr
    · obtain ⟨haddress, hr⟩ := (Option.ite_none_right_eq_some).1 hr
      obtain rfl := Option.some.inj hr
      cases hfits with
      | root => exact ⟨_, congrArg (Resource.root · _) (congrArg Address.project haddress)⟩
      | child _ _ _ =>
        exact absurd (congrArg Address.segments haddress) Address.segments_child_ne_nil

theorem IsBuilt.extends (ht : t.IsBuilt) (h : t.Extends made t')
    (hmade : ∀ r, made r → r.IsSpelled) : t'.IsBuilt := by
  induction h with
  | refl => exact ht
  | tail _ hgains ih =>
    cases hgains with
    | push hparent hcontainer hfree hnew =>
      exact ih.append hfree (.child hparent hcontainer (hmade _ hnew))

theorem Made.isSpelled (h : Made project segments kind link r)
    (hsegments : ∀ s ∈ segments, IsSegment s) : r.IsSpelled := by
  obtain ⟨-, more, rfl, -⟩ := h
  exact fun s hs => hsegments s (List.mem_append_left _ hs)

/-- **A call builds on** what calls have built. -/
theorem IsBuilt.apply (ht : t.IsBuilt) (hcall : call.IsSpelled) (h : t.apply call = .ok t') :
    t'.IsBuilt := by
  cases call with
  | project name location =>
    rw [Tree.apply, addProject] at h
    split_ifs at h with hproject
    cases h
    exact ht.append (by simpa [hasProject] using hproject) .root
  | resource project segments kind link =>
    obtain ⟨path, rfl⟩ := hcall
    exact ht.extends (insert_extends ht.isGrown h) fun r hr =>
      hr.isSpelled fun _ => isSegment_of_mem_segmentsOf

/-- **What every successful call keeps, any calls keep**: those that fail change
nothing. -/
theorem applyAll_induction {motive : Tree → Prop} {calls : List Call} (ht : motive t)
    (hstep : ∀ call ∈ calls, ∀ t t', motive t → t.apply call = .ok t' → motive t') :
    motive (t.applyAll calls) := by
  induction calls generalizing t with
  | nil => exact ht
  | cons call calls ih =>
    obtain ⟨hcall, hcalls⟩ := List.forall_mem_cons.1 hstep
    have hnext : motive ((t.apply call).toOption.getD t) := by
      cases h : t.apply call with
      | ok t' => exact hcall t t' ht h
      | error e => exact ht
    exact ih hnext hcalls

/-- **The tree after any calls is built**, whichever of them fail. -/
theorem isBuilt_applyAll {calls : List Call} (hcalls : ∀ c ∈ calls, c.IsSpelled) :
    (Tree.empty.applyAll calls).IsBuilt :=
  applyAll_induction .empty fun call hcall _ _ ht h => ht.apply (hcalls call hcall) h

/-- What is below a project is no project, if no call asks for one there. -/
theorem kind_ne_project_of_applyAll {calls : List Call} (hcalls : ∀ c ∈ calls, c.IsSpelled)
    (hkinds : ∀ project segments link, .resource project segments .project link ∉ calls)
    (hr : r ∈ (Tree.empty.applyAll calls).resources) (hsegments : r.address.segments ≠ []) :
    r.kind ≠ .project := by
  refine And.right (applyAll_induction (motive := fun t => t.IsBuilt ∧
      ∀ r ∈ t.resources, r.address.segments ≠ [] → r.kind ≠ .project)
    ⟨.empty, by simp [Tree.empty]⟩ fun call hcall t t' ht h => ?_) r hr hsegments
  refine ⟨ht.1.apply (hcalls call hcall) h, fun r hr hsegments => ?_⟩
  cases call with
  | project name location =>
    rw [Tree.apply, addProject] at h
    split_ifs at h with hproject
    cases h
    rcases List.mem_append.1 hr with hr | hr
    · exact ht.2 r hr hsegments
    · rw [List.mem_singleton.1 hr] at hsegments
      exact absurd rfl hsegments
  | resource project segments kind link =>
    rcases (insert_extends ht.1.isGrown h).mem_or hr with hold | ⟨⟨-, more, -, hmade⟩, -⟩
    · exact ht.2 r hold hsegments
    · split_ifs at hmade with hmore
      · rintro hproject
        rw [hmade.1] at hproject
        exact hkinds _ _ _ (hproject ▸ hcall)
      · simp [hmade.1]

end Tree

end BuildMarkers
