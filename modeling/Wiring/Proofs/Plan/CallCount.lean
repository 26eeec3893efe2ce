import Wiring.Proofs.Plan.BuildOrder

namespace Wiring

variable {H : Host}

def constructed (nodes : Array (Node H)) : Nat :=
  nodes.toList.countP fun n => !n.isDefaulted

@[simp] theorem constructed_push (nodes : Array (Node H)) (n : Node H) :
    constructed (nodes.push n) = constructed nodes + if n.isDefaulted then 0 else 1 := by
  unfold constructed
  rw [Array.toList_push, List.countP_append, List.countP_singleton]
  cases n.isDefaulted <;> rfl

namespace Plan

variable {p : Plan H} {marks : Marks} {id : NodeId} {n : Node H} {depth bound calls : Nat}
  {inside : Nat → Prop}

def Marks.CoverSlots (marks : Marks) (p : Plan H) (bound : Nat) (inside : Nat → Prop) : Prop :=
  marks.size = p.nodes.size ∧ ∀ (i : Nat) (n : Node H), p.nodes[i]? = some n →
    n.slot.isSome = true → (marks.getD i false = true ↔ i < bound ∨ inside i)

theorem coverSlots_unmarked (p : Plan H) : p.unmarked.CoverSlots p 0 fun _ => False := by
  obtain ⟨hsize, hmarks⟩ := p.cover_unmarked
  exact ⟨hsize, fun i n hn _ => hmarks i (Array.getElem?_eq_some_iff.mp hn).1⟩

theorem Marks.CoverSlots.enter (h : marks.CoverSlots p bound inside)
    (hn : p.nodes[id.index]? = some n) :
    (if n.slot.isSome then marks.add id else marks).CoverSlots p bound
      fun i => inside i ∨ i = id.index := by
  split
  next =>
    refine ⟨by simp [Marks.add, h.1], fun i m hm hslot => ?_⟩
    rw [getD_add (h.1 ▸ (Array.getElem?_eq_some_iff.mp hm).1), h.2 i m hm hslot, or_assoc]
  next hnone =>
    refine ⟨h.1, fun i m hm hslot => ?_⟩
    have hne : i ≠ id.index := by
      rintro rfl
      rw [hn, Option.some.injEq] at hm
      exact hnone (hm ▸ hslot)
    rw [h.2 i m hm hslot]
    simp [hne]

theorem Marks.CoverSlots.leave
    (h : marks.CoverSlots p id.index fun i => inside i ∨ i = id.index) :
    marks.CoverSlots p (id.index + 1) inside := by
  refine ⟨h.1, fun i n hn hslot => ?_⟩
  rw [h.2 i n hn hslot, Nat.lt_succ_iff_lt_or_eq]
  tauto

theorem Marks.CoverSlots.has_eq_false (h : marks.CoverSlots p bound inside)
    (hn : p.nodes[id.index]? = some n) (hbound : bound ≤ id.index)
    (hinside : ∀ i, inside i → id.index < i) (hslot : n.slot.isSome = true) :
    marks.has id = false := by
  rw [← Bool.not_eq_true, has, h.2 _ n hn hslot]
  rintro (hbefore | hopen)
  · exact Nat.not_le_of_gt hbefore hbound
  · exact Nat.lt_irrefl _ (hinside _ hopen)

def countAll (p : Plan H) (depth : Nat) (ids : List NodeId) (progress : Nat × Marks) : Nat × Marks :=
  ids.foldl
    (fun (calls, counted) id =>
      let (more, counted) := p.countFrom depth id counted
      (calls + more, counted))
    progress

@[simp] theorem countAll_nil (progress : Nat × Marks) : p.countAll depth [] progress = progress :=
  rfl

@[simp] theorem countAll_cons (rest : List NodeId) :
    p.countAll depth (id :: rest) (calls, marks) = p.countAll depth rest
      (calls + (p.countFrom depth id marks).1, (p.countFrom depth id marks).2) := rfl

theorem countAll_append (ids others : List NodeId) (progress : Nat × Marks) :
    p.countAll depth (ids ++ others) progress =
      p.countAll depth others (p.countAll depth ids progress) :=
  List.foldl_append

theorem countFrom_of_counted (hn : p.nodes[id.index]? = some n) (hslot : n.slot.isSome = true)
    (hmarked : marks.has id = true) : p.countFrom depth id marks = (0, marks) := by
  have hnode : p.node? id = some n := hn
  cases depth with
  | zero => rfl
  | succ depth =>
      unfold countFrom
      simp [hnode, hslot, hmarked]

theorem countFrom_of_uncounted {more : Nat} {mid : Marks} (hn : p.nodes[id.index]? = some n)
    (hmarks : marks.CoverSlots p bound inside) (hbound : bound ≤ id.index)
    (hinside : ∀ i, inside i → id.index < i)
    (hargs : ∀ calls, p.countAll depth n.args
      (calls, if n.slot.isSome then marks.add id else marks) = (calls + more, mid)) :
    p.countFrom (depth + 1) id marks = ((if n.isDefaulted then 0 else 1) + more, mid) := by
  have hnode : p.node? id = some n := hn
  rw [← hargs]
  unfold countFrom
  simp only [hnode]
  rw [if_neg]
  · rfl
  · rw [Bool.and_eq_true, not_and, Bool.not_eq_true]
    exact hmarks.has_eq_false hn hbound hinside

end Plan

namespace Surveyed

variable {registry : Registry H} {options : Options} {errand : Errand H} {s t : Survey H}
  {ids : List NodeId} {p : Plan H}

/-- Counting below the nodes that a survey has returned, in a plan that contains its arena, counts
the nodes that the survey has appended. -/
theorem countAll_eq (h : Surveyed registry options errand s ids t) (hr : registry.Assembled)
    (herrand : Registered registry errand) (hs : s.Mirrors registry options.constructorPolicy)
    (hnodes : Grows t.nodes p.nodes) (hfits : t.nodes.size ≤ UInt32.size) (depth : Nat)
    (hdepth : t.nodes.size ≤ depth) (marks : Plan.Marks) (inside : Nat → Prop)
    (hmarks : marks.CoverSlots p s.nodes.size inside)
    (hinside : ∀ i, inside i → t.nodes.size ≤ i) :
    ∃ after more, after.CoverSlots p t.nodes.size inside ∧
      constructed t.nodes = constructed s.nodes + more ∧
      ∀ calls, p.countAll depth ids (calls, marks) = (calls + more, after) := by
  induction h generalizing depth marks inside with
  | @known r s id hknown =>
      obtain ⟨n, hn, hslot⟩ := hs.exists_of_known hr herrand hknown
      rw [← Option.isSome_iff_ne_none] at hslot
      have hmarked : marks.has id = true :=
        (hmarks.2 _ n (hnodes _ _ hn) hslot).mpr
          (Or.inl (Array.getElem?_eq_some_iff.mp hn).1)
      refine ⟨marks, 0, hmarks, rfl, fun calls => ?_⟩
      simp [Plan.countFrom_of_counted (hnodes _ _ hn) hslot hmarked]
  | @fresh r s mid chosen args hknown hinner hchosen hargs ih =>
      let id := (mid.append (.constructed r chosen) args r.lifetime).1
      rw [Survey.remember_nodes, Survey.ascend, Survey.size_append] at hfits hdepth hinside
      rw [Survey.remember_nodes, Survey.ascend] at hnodes ⊢
      have hindex : id.index = mid.nodes.size := mid.append_index _ _ _ (by omega)
      obtain ⟨slot, hn, -, -⟩ := mid.exists_appended _ _ _ (by omega) hnodes
      -- The node is marked before its arguments are counted, although it stands after them.
      have hopen : ∀ i, inside i ∨ i = id.index → mid.nodes.size ≤ i := by
        rintro i (hopen | rfl)
        · exact Nat.le_of_succ_le (hinside i hopen)
        · exact Nat.le_of_eq hindex.symm
      obtain ⟨depth, rfl⟩ : ∃ less, depth = less + 1 := ⟨depth - 1, by omega⟩
      obtain ⟨after, more, hafter, hmore, hcount⟩ := ih trivial ⟨hs.arena, hs.memory⟩
        ((mid.append_grows _ _ _).trans hnodes) (by omega) depth (by omega) _ _ (hmarks.enter hn)
        hopen
      have hown := Plan.countFrom_of_uncounted hn hmarks (hindex ▸ hargs.size_le)
        (fun i hi => hindex ▸ hinside i hi) hcount
      refine ⟨after, 1 + more, ?_, ?_, fun calls => ?_⟩
      · rw [← hindex] at hafter
        rw [Survey.size_append, ← hindex]
        exact hafter.leave
      · obtain ⟨slot, hpush, -⟩ := mid.append_nodes (.constructed r chosen) args r.lifetime
        rw [hpush, constructed_push, hmore, Nat.add_comm 1 more, ← Nat.add_assoc]
        rfl
      · rw [Plan.countAll_cons, hown, Plan.countAll_nil]
        rfl
  | nil => exact ⟨marks, 0, hmarks, rfl, fun _ => rfl⟩
  | @registered parent d parameter rest s mid t ids others hfind hd hrest ihd ihrest =>
      have hmem := Registry.Coherent.mem_of_find? hfind
      have hle := hrest.size_le
      obtain ⟨hmid, -⟩ := hd.mirrors hr hmem hs (by omega)
      obtain ⟨between, some, hbetween, hsome, hfirst⟩ := ihd hmem hs (hrest.grows.trans hnodes)
        (by omega) depth (by omega) marks inside hmarks
        fun i hi => Nat.le_trans hle (hinside i hi)
      obtain ⟨after, more, hafter, hmore, hsecond⟩ := ihrest trivial hmid hnodes hfits depth
        hdepth between inside hbetween hinside
      refine ⟨after, some + more, hafter, by omega, fun calls => ?_⟩
      rw [Plan.countAll_append, hfirst, hsecond, Nat.add_assoc]
  | @missing parent parameter rest s t others hfind hpolicy hrest ih =>
      let noted := Planner.noteDefault s parent parameter
      let id := (noted.append (.defaulted parameter) [] .transient).1
      have hsize := hrest.size_le
      rw [Survey.size_append] at hsize
      have hindex : id.index = s.nodes.size :=
        noted.append_index (.defaulted parameter) [] .transient (Nat.lt_of_lt_of_le hsize hfits)
      obtain ⟨slot, hn, hslot, -⟩ := noted.exists_appended _ _ _
        (Nat.lt_of_lt_of_le hsize hfits) (hrest.grows.trans hnodes)
      obtain rfl := hslot.mpr rfl
      obtain ⟨depth, rfl⟩ : ∃ less, depth = less + 1 := ⟨depth - 1, by omega⟩
      rw [← hindex] at hmarks
      have hown : p.countFrom (depth + 1) id marks = (0 + 0, marks) :=
        Plan.countFrom_of_uncounted hn hmarks (Nat.le_refl _)
          (fun i hi => Nat.lt_of_lt_of_le (hindex ▸ hsize) (hinside i hi)) fun _ => rfl
      have hmarked : marks.CoverSlots p
          (noted.append (.defaulted parameter) [] .transient).2.nodes.size inside := by
        rw [Survey.size_append]
        exact hindex ▸ (hmarks.enter hn).leave
      have hnoted : noted.Mirrors registry options.constructorPolicy := ⟨hs.arena, hs.memory⟩
      obtain ⟨after, more, hafter, hmore, hrestcount⟩ := ih trivial (hnoted.append_default hfind)
        hnodes hfits (depth + 1) hdepth marks inside hmarked hinside
      refine ⟨after, more, hafter, ?_, fun calls => ?_⟩
      · rw [hmore]
        exact congrArg (· + more) (constructed_push noted.nodes _)
      · rw [List.singleton_append, Plan.countAll_cons, hown]
        exact hrestcount calls

end Surveyed

theorem Registry.callCount_of_plan {registry : Registry H} {options : Options}
    (hr : registry.Assembled) {root : Key} {p : Plan H}
    (hplan : (registry.plan options root).result = .ok p)
    (hfits : p.nodes.size ≤ UInt32.size) : p.callCount = constructed p.nodes := by
  obtain ⟨r, -, hcompact⟩ := registry.compact_of_plan hr hplan hfits
  obtain ⟨d, t, hd, hsurveyed, hnodes, -⟩ := registry.exists_survey_of_plan hplan
  obtain ⟨after, more, -, hmore, hcount⟩ := hsurveyed.countAll_eq hr (Coherent.mem_of_find? hd)
    .start (hnodes ▸ .refl t.nodes) (hnodes ▸ hfits) (p.root.index + 1)
    (Nat.le_of_eq (hnodes ▸ hcompact.root_last.symm)) p.unmarked (fun _ => False)
    p.coverSlots_unmarked (fun _ => False.elim)
  have hcalls : 0 + p.callCount = 0 + more := congrArg Prod.fst (hcount 0)
  rw [Nat.zero_add, Nat.zero_add] at hcalls
  rw [hcalls, hnodes, hmore]
  simp [Survey.start, constructed]

end Wiring
