import BuildMarkers.Proofs.Workspace.Alike
/-!
# Calls in another order

What a tree has to look like after calls that all succeed can be said without
their order (`Meets`): every call finds what it asks for, and whatever nobody asks
for is a plain folder on the way to something that is asked for. Two trees that
meet the same calls are alike (`Meets.alike`): this goes down the addresses, since
a resource is made from the container above it.
-/

namespace BuildMarkers

namespace Tree

variable {t t' : Tree} {a : Address} {r s : Resource} {name project : String}
  {segments : List String} {kind : Kind} {link : Link} {call : Call} {calls calls' : List Call}
  {location : Path}

/-- The tree that the calls make from nothing, if all of them succeed. -/
def ofCalls (calls : List Call) : Except TreeError Tree := calls.foldlM apply .empty

/-- The tree is what the calls ask for. -/
structure Meets (t : Tree) (calls : List Call) : Prop where
  isBuilt : t.IsBuilt
  root_eq : ∀ name location, .project name location ∈ calls →
    t.get? (.ofProject name) = some (.root name location.location)
  exists_project : ∀ name, (t.get? (.ofProject name)).isSome →
    ∃ location, .project name location ∈ calls
  asked : ∀ project segments kind link, .resource project segments kind link ∈ calls →
    ∃ r, t.get? ⟨project, segments⟩ = some r ∧ r.kind = kind ∧ r.link.same link = true
  /-- A resource below a project is asked for, or is a plain folder above one that
  is. -/
  needed : ∀ r ∈ t.resources, r.address.segments ≠ [] →
    ∃ more kind link, .resource r.address.project (r.address.segments ++ more) kind link ∈ calls ∧
      (more ≠ [] → r.kind = .folder ∧ r.link = .none)

theorem meets_empty : empty.Meets [] :=
  ⟨.empty, by simp, by simp [empty, get?], by simp, by simp [empty]⟩

/-- What a tree has met it still meets when it has grown, if each new resource is
asked for or needed. -/
theorem Meets.grow (h : t.Meets calls) (hgrows : t.Grows t') (hbuilt : t'.IsBuilt)
    (hroot : ∀ name location, call = .project name location →
      t'.get? (.ofProject name) = some (.root name location.location))
    (hasked : ∀ project segments kind link, call = .resource project segments kind link →
      ∃ r, t'.get? ⟨project, segments⟩ = some r ∧ r.kind = kind ∧ r.link.same link = true)
    (hnew : ∀ r ∈ t'.resources, r ∈ t.resources ∨
      (∃ name location, call = .project name location ∧ r.address = .ofProject name) ∨
      r.address.segments ≠ [] ∧
        ∃ project segments kind link, call = .resource project segments kind link ∧
          Made project segments kind link r) :
    t'.Meets (calls ++ [call]) := by
  refine ⟨hbuilt, fun name location hmem => ?_, fun name hname => ?_,
    fun project segments kind link hmem => ?_, fun r hr hsegments => ?_⟩
  · rcases List.mem_append.1 hmem with hmem | hmem
    · exact hgrows.get? (h.root_eq name location hmem)
    · exact hroot name location (List.mem_singleton.1 hmem).symm
  · obtain ⟨r, hr⟩ := Option.isSome_iff_exists.1 hname
    have haddress := address_of_get? hr
    rcases hnew r (mem_of_get? hr) with hold | ⟨name', location, hcall, hroot⟩ | ⟨hsegments, -⟩
    · obtain ⟨location, hmem⟩ := h.exists_project name
        (Option.isSome_of_eq_some (haddress ▸ h.isBuilt.isGrown.unique r hold))
      exact ⟨location, List.mem_append_left _ hmem⟩
    · rw [haddress] at hroot
      obtain rfl : name = name' := congrArg Address.project hroot
      exact ⟨location, by simp [hcall]⟩
    · rw [haddress] at hsegments
      exact absurd rfl hsegments
  · rcases List.mem_append.1 hmem with hmem | hmem
    · obtain ⟨r, hr, hsame⟩ := h.asked project segments kind link hmem
      exact ⟨r, hgrows.get? hr, hsame⟩
    · exact hasked project segments kind link (List.mem_singleton.1 hmem).symm
  · rcases hnew r hr with
      hold | ⟨name, location, -, hroot⟩ | ⟨-, project, segments, kind, link, hcall, hmade⟩
    · obtain ⟨more, kind, link, hmem, hfolder⟩ := h.needed r hold hsegments
      exact ⟨more, kind, link, List.mem_append_left _ hmem, hfolder⟩
    · rw [hroot] at hsegments
      exact absurd rfl hsegments
    · obtain ⟨rfl, more, rfl, hmade⟩ := hmade
      refine ⟨more, kind, link, by simp [hcall], fun hmore => ?_⟩
      rwa [if_neg hmore] at hmade

/-- **A call that succeeds is met**, and so are those before it. -/
theorem Meets.apply (h : t.Meets calls) (hcall : call.IsSpelled) (happly : t.apply call = .ok t') :
    t'.Meets (calls ++ [call]) := by
  have hbuilt := h.isBuilt.apply hcall happly
  cases call with
  | project name location =>
    obtain ⟨hgrows, -, hget, -⟩ := addProject_eq_ok h.isBuilt.isGrown happly
    refine h.grow hgrows hbuilt ?_ (fun _ _ _ _ hcall => by cases hcall) fun r hr => ?_
    · rintro _ _ ⟨⟩
      exact hget
    · rw [Tree.apply, addProject] at happly
      split_ifs at happly
      cases happly
      rcases List.mem_append.1 hr with hr | hr
      · exact .inl hr
      · exact .inr (.inl ⟨name, location, rfl, by rw [List.mem_singleton.1 hr]⟩)
  | resource project segments kind link =>
    obtain ⟨hgrows, -, above, name, parent, link', -, hlink, -, hget, -⟩ :=
      insert_eq_ok h.isBuilt.isGrown happly
    refine h.grow hgrows hbuilt (fun _ _ hcall => by cases hcall) ?_ fun r hr => ?_
    · rintro _ _ _ _ ⟨⟩
      exact ⟨_, hget, rfl, hlink⟩
    · rcases (insert_extends h.isBuilt.isGrown happly).mem_or hr with hold | ⟨hmade, hsegments⟩
      · exact .inl hold
      · exact .inr (.inr ⟨hsegments, project, segments, kind, link, rfl, hmade⟩)

/-- **The tree that calls make meets them.** -/
theorem meets_ofCalls (hcalls : ∀ c ∈ calls, c.IsSpelled) (h : ofCalls calls = .ok t) :
    t.Meets calls := by
  induction calls using List.reverseRecOn generalizing t with
  | nil =>
    cases h
    exact meets_empty
  | append_singleton calls call ih =>
    rw [ofCalls, List.foldlM_append] at h
    obtain ⟨u, hu, h⟩ := bind_eq_ok_iff.1 h
    obtain ⟨hcalls, hcall⟩ := forall_mem_concat.1 hcalls
    refine (ih hcalls hu).apply hcall ?_
    simpa using h

/-- One call at their address makes two resources agree. -/
theorem Meets.agree_of_mem (h : t.Meets calls) (h' : t'.Meets calls')
    (hmem : .resource a.project a.segments kind link ∈ calls)
    (hmem' : .resource a.project a.segments kind link ∈ calls') (hr : t.get? a = some r)
    (hs : t'.get? a = some s) : r.kind = s.kind ∧ r.link.same s.link = true := by
  obtain ⟨r', hr', hkind, hlink⟩ := h.asked _ _ _ _ hmem
  obtain ⟨s', hs', hkind', hlink'⟩ := h'.asked _ _ _ _ hmem'
  obtain rfl : r = r' := Option.some.inj (hr.symm.trans hr')
  obtain rfl : s = s' := Option.some.inj (hs.symm.trans hs')
  exact ⟨hkind.trans hkind'.symm, Link.same_trans hlink (Link.same_symm hlink')⟩

/-- **Resources at one address agree**, whether anybody asks for them or not. -/
theorem Meets.agree (h : t.Meets calls) (h' : t'.Meets calls') (hcalls : calls.Perm calls')
    (hr : t.get? a = some r) (hs : t'.get? a = some s) (ha : a.segments ≠ []) :
    r.kind = s.kind ∧ r.link.same s.link = true := by
  have hraddress := address_of_get? hr
  have hsaddress := address_of_get? hs
  obtain ⟨more, kind, link, hmem, hfolder⟩ := h.needed r (mem_of_get? hr) (hraddress ▸ ha)
  obtain ⟨more', kind', link', hmem', hfolder'⟩ := h'.needed s (mem_of_get? hs) (hsaddress ▸ ha)
  rw [hraddress] at hmem
  rw [hsaddress] at hmem'
  by_cases hmore : more = []
  · rw [hmore, List.append_nil] at hmem
    exact h.agree_of_mem h' hmem (hcalls.mem_iff.1 hmem) hr hs
  by_cases hmore' : more' = []
  · rw [hmore', List.append_nil] at hmem'
    exact h.agree_of_mem h' (hcalls.mem_iff.2 hmem') hmem' hr hs
  · -- nobody asks for the resource itself, so it is a plain folder in both trees
    rw [(hfolder hmore).1, (hfolder hmore).2, (hfolder' hmore').1, (hfolder' hmore').2]
    exact ⟨rfl, rfl⟩

/-- **What one tree has, another that meets the same calls has as well.** The
induction goes down the address: the containers above are alike. -/
theorem Meets.exists_alike (h : t.Meets calls) (h' : t'.Meets calls') (hcalls : calls.Perm calls')
    (hr : t.get? a = some r) : ∃ s, t'.get? a = some s ∧ r.Alike s := by
  induction a using Address.childInduction generalizing r with
  | project name =>
    obtain ⟨location, hmem⟩ := h.exists_project name (Option.isSome_of_eq_some hr)
    obtain rfl : r = .root name location.location :=
      Option.some.inj (hr.symm.trans (h.root_eq name location hmem))
    exact ⟨_, h'.root_eq name location (hcalls.mem_iff.1 hmem), .refl _⟩
  | child a n ih =>
    have hgrown := h.isBuilt.isGrown
    have hgrown' := h'.isBuilt.isGrown
    obtain ⟨p, hp, -⟩ := hgrown.exists_above hr
    obtain ⟨q, hq, halike⟩ := ih hp
    -- something is asked for at or below the address, so the other tree has it too
    have haddress := address_of_get? hr
    obtain ⟨more, kind, link, hmem, -⟩ :=
      h.needed r (mem_of_get? hr) (haddress ▸ Address.segments_child_ne_nil)
    rw [haddress] at hmem
    obtain ⟨below, hbelow, -⟩ := h'.asked _ _ _ _ (hcalls.mem_iff.1 hmem)
    obtain ⟨s, hs⟩ :=
      Option.isSome_iff_exists.1 (hgrown'.isSome_of_append (Option.isSome_of_eq_some hbelow))
    have hs : t'.get? (a.child n) = some s := hs
    have hagree := h.agree h' hcalls hr hs Address.segments_child_ne_nil
    refine ⟨s, hs, ?_⟩
    obtain rfl : p.address = a := address_of_get? hp
    have hq' : q.address = p.address := address_of_get? hq
    have hrbelow : r = p.below n r.kind r.link := hgrown.eq_below hp hr
    have hsbelow : s = q.below n s.kind s.link := hgrown'.eq_below (hq'.symm ▸ hq) (hq'.symm ▸ hs)
    rw [hrbelow, hsbelow, ← hagree.1]
    exact halike.below hagree.2 n r.kind

/-- **Trees that meet the same calls are alike**, in whatever order these were
made. -/
theorem Meets.alike (h : t.Meets calls) (h' : t'.Meets calls') (hcalls : calls.Perm calls') :
    t.Alike t' := by
  refine .of_exists (fun a r hr => h.exists_alike h' hcalls hr) fun a s hs => ?_
  obtain ⟨r, hr, -⟩ := h'.exists_alike h hcalls.symm hs
  exact ⟨r, hr⟩

end Tree

end BuildMarkers
