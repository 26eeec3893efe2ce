import Wiring.Plan.Traversal
import Wiring.Proofs.Plan.WellFormed

namespace Wiring

variable {H : Host}

namespace Plan

variable {p : Plan H} {marks mid : Marks} {order more : Array NodeId} {id : NodeId}
  {depth bound : Nat} {inside : Nat → Prop}

/-- Of the nodes at the first `size` positions, those before `bound` and those `inside` are marked. -/
def Marks.Cover (marks : Marks) (size bound : Nat) (inside : Nat → Prop) : Prop :=
  marks.size = size ∧ ∀ i < size, (marks.getD i false = true ↔ i < bound ∨ inside i)

theorem cover_unmarked (p : Plan H) : p.unmarked.Cover p.nodes.size 0 fun _ => False := by
  refine ⟨Array.size_replicate, fun i hi => ?_⟩
  simp [unmarked, Array.getD_eq_getD_getElem?, hi]

theorem Marks.getD_add {i : Nat} (hi : i < marks.size) (id : NodeId) :
    (marks.add id).getD i false = true ↔ marks.getD i false = true ∨ i = id.index := by
  rw [Marks.add, Array.getD_eq_getD_getElem?, Array.getElem?_setIfInBounds]
  by_cases heq : id.index = i
  · simp [heq, hi]
  · rw [if_neg heq, ← Array.getD_eq_getD_getElem?]
    simp [Ne.symm heq]

theorem Marks.Cover.add (h : marks.Cover p.nodes.size bound inside) (id : NodeId) :
    (marks.add id).Cover p.nodes.size bound fun i => inside i ∨ i = id.index := by
  refine ⟨by simp [Marks.add, h.1], fun i hi => ?_⟩
  rw [getD_add (h.1 ▸ hi), h.2 i hi, or_assoc]

theorem Marks.Cover.leave
    (h : marks.Cover p.nodes.size id.index fun i => inside i ∨ i = id.index) :
    marks.Cover p.nodes.size (id.index + 1) inside := by
  refine ⟨h.1, fun i hi => ?_⟩
  rw [h.2 i hi, Nat.lt_succ_iff_lt_or_eq]
  tauto

theorem Marks.Cover.has_eq_false (h : marks.Cover p.nodes.size bound inside)
    (hlt : id.index < p.nodes.size) (hbound : bound ≤ id.index)
    (hinside : ∀ i, inside i → id.index < i) : marks.has id = false := by
  rw [← Bool.not_eq_true, has, h.2 _ hlt]
  rintro (hbefore | hopen)
  · exact Nat.not_le_of_gt hbefore hbound
  · exact Nat.lt_irrefl _ (hinside _ hopen)

theorem postOrder_of_marked (hmarked : marks.has id = true) :
    p.postOrder depth id (marks, order) = (marks, order) := by
  cases depth with
  | zero => rfl
  | succ depth =>
      unfold postOrder
      cases p.node? id with
      | none => rfl
      | some n => simp [hmarked]

theorem postOrder_of_unmarked {n : Node H} (hn : p.nodes[id.index]? = some n)
    (hmarks : marks.Cover p.nodes.size bound inside) (hbound : bound ≤ id.index)
    (hinside : ∀ i, inside i → id.index < i)
    (hargs : n.args.foldl (fun progress arg => p.postOrder depth arg progress)
      (marks.add id, order) = (mid, order ++ more)) :
    p.postOrder (depth + 1) id (marks, order) =
      (mid, order ++ if n.slot.isSome then more.push id else more) := by
  have hunmarked := hmarks.has_eq_false (Array.getElem?_eq_some_iff.mp hn).1 hbound hinside
  have hnode : p.node? id = some n := hn
  unfold postOrder
  simp only [hnode, hunmarked, hargs]
  cases n.slot <;> simp

theorem postOrder_of_defaulted {parameter : Parameter H}
    (hn : p.nodes[id.index]? = some ⟨.defaulted parameter, [], none⟩)
    (hmarks : marks.Cover p.nodes.size id.index inside) (hinside : ∀ i, inside i → id.index < i) :
    p.postOrder (depth + 1) id (marks, order) = (marks.add id, order) := by
  have hargs : ([] : List NodeId).foldl (fun progress arg => p.postOrder depth arg progress)
      (marks.add id, order) = (marks.add id, order ++ #[]) := by simp
  simpa using postOrder_of_unmarked hn hmarks (Nat.le_refl _) hinside hargs

end Plan

namespace Surveyed

variable {registry : Registry H} {options : Options} {errand : Errand H} {s t : Survey H}
  {ids : List NodeId} {p : Plan H}

/-- Traversing the nodes that a survey has returned, in a plan that contains its arena, notes the
nodes that the survey has given slots. -/
theorem postOrder_eq (h : Surveyed registry options errand s ids t) (hs : s.RemembersNodes)
    (hnodes : Grows t.nodes p.nodes) (hfits : t.nodes.size ≤ UInt32.size) (depth : Nat)
    (hdepth : t.nodes.size ≤ depth) (marks : Plan.Marks) (order : Array NodeId)
    (inside : Nat → Prop) (hmarks : marks.Cover p.nodes.size s.nodes.size inside)
    (hinside : ∀ i, inside i → t.nodes.size ≤ i) :
    ∃ after more, after.Cover p.nodes.size t.nodes.size inside ∧ t.slots = s.slots ++ more ∧
      ids.foldl (fun progress id => p.postOrder depth id progress) (marks, order) =
        (after, order ++ more) := by
  induction h generalizing depth marks order inside with
  | @known r s id hknown =>
      have hlt := hs _ _ (Survey.known?_eq_some hknown).2
      have hmarked : marks.has id = true :=
        (hmarks.2 _ (Nat.lt_of_lt_of_le hlt hnodes.size_le)).mpr (Or.inl hlt)
      refine ⟨marks, #[], hmarks, by simp, ?_⟩
      simp [Plan.postOrder_of_marked hmarked]
  | @fresh r s mid chosen args hknown hinner hchosen hargs ih =>
      let id := (mid.append (.constructed r chosen) args r.lifetime).1
      rw [Survey.remember_nodes, Survey.ascend, Survey.size_append] at hfits hdepth hinside
      rw [Survey.remember_nodes, Survey.ascend] at hnodes
      have hindex : id.index = mid.nodes.size := mid.append_index _ _ _ (by omega)
      obtain ⟨slot, hn, -, hslots⟩ := mid.exists_appended _ _ _ (by omega) hnodes
      have hopen : ∀ i, inside i ∨ i = id.index → mid.nodes.size ≤ i := by
        rintro i (hopen | rfl)
        · exact Nat.le_of_succ_le (hinside i hopen)
        · exact Nat.le_of_eq hindex.symm
      obtain ⟨depth, rfl⟩ : ∃ less, depth = less + 1 := ⟨depth - 1, by omega⟩
      obtain ⟨after, more, hafter, hmore, hfold⟩ :=
        ih hs ((mid.append_grows _ _ _).trans hnodes) (by omega) depth (by omega) (marks.add id)
          order _ (hmarks.add id) hopen
      rw [← hindex] at hafter
      have hwalk := Plan.postOrder_of_unmarked hn hmarks
        (hindex ▸ hargs.size_le) (fun i hi => hindex ▸ hinside i hi) hfold
      refine ⟨after, if slot.isSome then more.push id else more, ?_, ?_, hwalk⟩
      · rw [Survey.remember_nodes, Survey.ascend, Survey.size_append, ← hindex]
        exact hafter.leave
      · rw [Survey.remember_slots, Survey.ascend, hslots, hmore]
        cases slot with
        | none => rfl
        | some slot => exact (Array.append_push ..).symm
  | nil => exact ⟨marks, #[], hmarks, by simp, by simp⟩
  | @registered parent d parameter rest s mid t ids others hfind hd hrest ihd ihrest =>
      have hle := hrest.size_le
      obtain ⟨between, some, hbetween, hsome, hfirst⟩ := ihd hs (hrest.grows.trans hnodes)
        (by omega) depth (by omega) marks order inside hmarks
        fun i hi => Nat.le_trans hle (hinside i hi)
      obtain ⟨after, more, hafter, hmore, hsecond⟩ := ihrest (hd.index_lt hs).2 hnodes hfits
        depth hdepth between (order ++ some) inside hbetween hinside
      refine ⟨after, some ++ more, hafter, by simp [hmore, hsome], ?_⟩
      rw [List.foldl_append, hfirst, hsecond, Array.append_assoc]
  | @missing parent parameter rest s t others hfind hpolicy hrest ih =>
      let noted := Planner.noteDefault s parent parameter
      let id := (noted.append (.defaulted parameter) [] .transient).1
      have hsize := hrest.size_le
      rw [Survey.size_append] at hsize
      have hindex : id.index = s.nodes.size :=
        noted.append_index (.defaulted parameter) [] .transient (Nat.lt_of_lt_of_le hsize hfits)
      obtain ⟨slot, hn, hslot, -⟩ := noted.exists_appended _ _ _
        (Nat.lt_of_lt_of_le hsize hfits) (hrest.grows.trans hnodes)
      obtain rfl := hslot.mpr rfl
      obtain ⟨depth, rfl⟩ : ∃ less, depth = less + 1 := ⟨depth - 1, by omega⟩
      rw [← hindex] at hmarks
      have hbeyond : ∀ i, inside i → id.index < i := fun i hi =>
        Nat.lt_of_lt_of_le (hindex ▸ hsize) (hinside i hi)
      have hmarked : (marks.add id).Cover p.nodes.size
          (noted.append (.defaulted parameter) [] .transient).2.nodes.size inside := by
        rw [Survey.size_append]
        exact hindex ▸ (hmarks.add id).leave
      have hnoted : noted.RemembersNodes := hs
      obtain ⟨after, more, hafter, hmore, hrestwalk⟩ := ih (hnoted.append _ _ _) hnodes hfits
        (depth + 1) hdepth (marks.add id) order inside hmarked hinside
      refine ⟨after, more, hafter, hmore, ?_⟩
      rw [List.foldl_append, List.foldl_cons, List.foldl_nil,
        Plan.postOrder_of_defaulted hn hmarks hbeyond]
      exact hrestwalk

end Surveyed

theorem Registry.buildOrder_of_plan {registry : Registry H} {options : Options}
    (hr : registry.Assembled) {root : Key} {p : Plan H}
    (hplan : (registry.plan options root).result = .ok p)
    (hfits : p.nodes.size ≤ UInt32.size) : p.buildOrder = p.slots.toList := by
  obtain ⟨r, -, hcompact⟩ := registry.compact_of_plan hr hplan hfits
  obtain ⟨d, t, -, hsurveyed, hnodes, hslots⟩ := registry.exists_survey_of_plan hplan
  obtain ⟨after, more, -, hmore, hwalk⟩ := hsurveyed.postOrder_eq Survey.remembersNodes_start
    (hnodes ▸ .refl t.nodes) (hnodes ▸ hfits) (p.root.index + 1)
    (Nat.le_of_eq (hnodes ▸ hcompact.root_last.symm)) p.unmarked #[] (fun _ => False)
    p.cover_unmarked (fun _ => False.elim)
  rw [List.foldl_cons, List.foldl_nil] at hwalk
  rw [Plan.buildOrder, hwalk, hslots, hmore]
  simp [Survey.start]

end Wiring
