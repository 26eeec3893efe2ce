import Wiring.Proofs.Factory.Evaluation

namespace Wiring

variable {H : Host} {registry : Registry H} {policy : ConstructorPolicy} {p : Plan H}
  {handle : Handler H} {table : Array Nat}

namespace Plan

/-- What the initializer steps of the given nodes do, one after the other. -/
def fills (p : Plan H) (handle : Handler H) (table : Array Nat) (ids : List NodeId) :
    Eval H Unit :=
  (ids.filterMap (p.fillStep? p.expressions)).forM fun step =>
    discard (step.interpret (Code.handling handle) table)

theorem fills_append (ids others : List NodeId) :
    p.fills handle table (ids ++ others) = (do
      p.fills handle table ids
      p.fills handle table others) := by
  unfold fills
  rw [List.filterMap_append, List.forM_eq_forM, List.forM_append]

/-- Everything below the marked nodes before a position is filled. -/
def Finished (registry : Registry H) (policy : ConstructorPolicy) (p : Plan H) (marks : Marks)
    (cells : Cells H) (bound : Nat) : Prop :=
  ∀ id : NodeId, marks.has id = true → id.index < bound → ∀ r, p.Stands id.index r →
    registry.Filled policy cells r

/-- A part of the traversal, from one progress to the next: it marks only nodes before `bound` that
stand for registrations `below`, and the steps that it adds do what `action` does. -/
structure Realizes (registry : Registry H) (policy : ConstructorPolicy) (p : Plan H)
    (handle : Handler H) (table : Array Nat) (bound : Nat) (below : Registration H → Prop)
    (action : Eval H Unit) (progress after : Marks × Array NodeId) : Prop where
  steps : ∃ ids, after.2.toList = progress.2.toList ++ ids ∧
    ∀ s : Store H, p.Finished registry policy progress.1 s.cells bound →
      p.fills handle table ids s = action s
  marks : ∀ id : NodeId, after.1.has id = true → progress.1.has id = true ∨
    id.index < bound ∧ ∀ r, p.Stands id.index r → below r

theorem has_add {marks : Marks} {id other : NodeId} (h : (marks.add id).has other = true) :
    other.index = id.index ∨ marks.has other = true := by
  unfold Marks.has Marks.add at *
  rw [Array.getD_eq_getD_getElem?, Array.getElem?_setIfInBounds] at h
  by_cases heq : id.index = other.index
  · exact Or.inl heq.symm
  · rw [if_neg heq] at h
    exact Or.inr (by rw [Array.getD_eq_getD_getElem?]; exact h)

theorem Finished.mono {marks : Marks} {c d : Cells H} {bound less : Nat}
    (h : p.Finished registry policy marks c bound) (hkeeps : c.Keeps d) (hle : less ≤ bound) :
    p.Finished registry policy marks d less :=
  fun id hmark hlt r hr => (h id hmark (Nat.lt_of_lt_of_le hlt hle) r hr).keep hkeeps

namespace Realizes

variable {bound : Nat} {below : Registration H → Prop} {progress after : Marks × Array NodeId}

theorem refl {action : Eval H Unit}
    (haction : ∀ s : Store H, p.Finished registry policy progress.1 s.cells bound →
      action s = .ok () s) :
    Realizes registry policy p handle table bound below action progress progress where
  steps := by
    refine ⟨[], by simp, ?_⟩
    intro s hs
    rw [haction s hs]
    rfl
  marks := fun _ h => Or.inl h

theorem andThen {less : Nat} {other : Registration H → Prop} {action more : Eval H Unit}
    {mid : Marks × Array NodeId}
    (hfirst : Realizes registry policy p handle table less below action progress mid)
    (hsecond : Realizes registry policy p handle table bound other more mid after)
    (hle : less ≤ bound)
    (haction : ∀ s t, action s = .ok () t →
      s.cells.Keeps t.cells ∧ ∀ r, below r → registry.Filled policy t.cells r) :
    Realizes registry policy p handle table bound (fun r => below r ∨ other r)
      (do action; more) progress after where
  steps := by
    obtain ⟨ids, hids, hdo⟩ := hfirst.steps
    obtain ⟨others, hothers, hmore⟩ := hsecond.steps
    refine ⟨ids ++ others, by simp [hothers, hids], ?_⟩
    intro s hs
    rw [fills_append]
    have hhead := hdo s (hs.mono (.refl _) hle)
    cases hresult : action s with
    | error e t => rw [Action.bind_of_error _ (hhead.trans hresult), Action.bind_of_error _ hresult]
    | ok _ t =>
        rw [Action.bind_of_ok _ (hhead.trans hresult), Action.bind_of_ok _ hresult]
        obtain ⟨hkeeps, hfilled⟩ := haction s t hresult
        apply hmore t
        intro id hmark hlt r hr
        rcases hfirst.marks id hmark with hbefore | ⟨-, hbelow⟩
        · exact (hs id hbefore hlt r hr).keep hkeeps
        · exact hfilled r (hbelow r hr)
  marks := by
    intro id hmark
    rcases hsecond.marks id hmark with hmid | ⟨hlt, hother⟩
    · rcases hfirst.marks id hmid with hbefore | ⟨hlt, hbelow⟩
      · exact Or.inl hbefore
      · exact Or.inr ⟨Nat.lt_of_lt_of_le hlt hle, fun r hr => Or.inl (hbelow r hr)⟩
    · exact Or.inr ⟨hlt, fun r hr => Or.inr (hother r hr)⟩

theorem mono {less : Nat} {other : Registration H → Prop} {action : Eval H Unit}
    (h : Realizes registry policy p handle table less below action progress after)
    (hle : less ≤ bound) (hbelow : ∀ r, below r → other r) :
    Realizes registry policy p handle table bound other action progress after where
  steps := by
    obtain ⟨ids, hids, hdo⟩ := h.steps
    exact ⟨ids, hids, fun s hs => hdo s (hs.mono (.refl _) hle)⟩
  marks := by
    intro id hmark
    rcases h.marks id hmark with hbefore | ⟨hlt, hmarked⟩
    · exact Or.inl hbefore
    · exact Or.inr ⟨Nat.lt_of_lt_of_le hlt hle, fun r hr => hbelow r (hmarked r hr)⟩

end Realizes

/-- Traversing from any node before `depth` fills what the node's registration reaches. -/
def Visits (registry : Registry H) (policy : ConstructorPolicy) (p : Plan H)
    (handle : Handler H) (table : Array Nat) (depth : Nat) : Prop :=
  ∀ (id : NodeId) (r : Registration H) (budget : Nat) (progress : Marks × Array NodeId),
    id.index < depth → p.Stands id.index r → registry.Buildable policy budget r →
      Realizes registry policy p handle table (id.index + 1) (registry.Reaches policy r)
        (registry.fillAll policy budget r) progress (p.postOrder depth id progress)

theorem fillAll_keeps_and_fills {r : Registration H} {budget : Nat}
    (hbuildable : registry.Buildable policy budget r) (s t : Store H)
    (h : registry.fillAll policy budget r s = .ok () t) :
    s.cells.Keeps t.cells ∧
      ∀ d, registry.Reaches policy r d → registry.Filled policy t.cells d := by
  have hends := Registry.fillAll_ends (s := s) hbuildable
  rw [h] at hends
  obtain ⟨hacts, hfilled⟩ := hends
  exact ⟨hacts.keeps, fun d hd => hfilled.of_reaches hd⟩

theorem postOrder_defaulted {depth : Nat} {id : NodeId} {parameter : Parameter H}
    {below : Registration H → Prop} (hlt : id.index < depth)
    (hn : p.nodes[id.index]? = some ⟨.defaulted parameter, [], none⟩)
    (progress : Marks × Array NodeId) :
    Realizes registry policy p handle table (id.index + 1) below (pure ()) progress
      (p.postOrder depth id progress) := by
  obtain ⟨depth, rfl⟩ : ∃ less, depth = less + 1 := ⟨depth - 1, by omega⟩
  obtain ⟨visited, order⟩ := progress
  have hnode : p.node? id = some ⟨.defaulted parameter, [], none⟩ := hn
  unfold postOrder
  rw [hnode]
  cases hvisited : visited.has id with
  | true => exact .refl fun _ _ => rfl
  | false =>
      refine ⟨⟨[], by simp, fun _ _ => rfl⟩, ?_⟩
      intro other hmark
      rcases has_add hmark with heq | hbefore
      · refine Or.inr ⟨by omega, ?_⟩
        rintro r ⟨chosen, args, slot, hr⟩
        rw [heq, hn] at hr
        cases hr
      · exact Or.inl hbefore

def ServesBelow (registry : Registry H) (policy : ConstructorPolicy) (parameter : Parameter H)
    (r : Registration H) : Prop :=
  ∃ d, registry.find? parameter.key = some d ∧ registry.Reaches policy d r

theorem visit_keeps_and_fills {parameter : Parameter H} {budget : Nat}
    (hbuildable : ∀ d, registry.find? parameter.key = some d →
      registry.Buildable policy budget d) (s t : Store H)
    (h : registry.visit (registry.fillAll policy budget) parameter s = .ok () t) :
    s.cells.Keeps t.cells ∧
      ∀ r, ServesBelow registry policy parameter r → registry.Filled policy t.cells r := by
  unfold Registry.visit at h
  cases hfind : registry.find? parameter.key with
  | none =>
      rw [hfind] at h
      cases h
      exact ⟨.refl _, by simp [ServesBelow, hfind]⟩
  | some d =>
      rw [hfind] at h
      obtain ⟨hkeeps, hfilled⟩ := fillAll_keeps_and_fills (hbuildable d hfind) s t h
      refine ⟨hkeeps, ?_⟩
      rintro r ⟨e, he, hr⟩
      rw [hfind, Option.some.injEq] at he
      exact hfilled r (he ▸ hr)

theorem realizes_arg {depth i budget : Nat} (h : p.Linked registry policy table)
    (hvisits : Visits registry policy p handle table depth) (hi : i ≤ depth)
    {parameter : Parameter H} {arg : NodeId} (harg : ServedBelow registry p.nodes i parameter arg)
    (hbuildable : ∀ d, registry.find? parameter.key = some d →
      registry.Buildable policy budget d) (progress : Marks × Array NodeId) :
    Realizes registry policy p handle table (arg.index + 1)
      (ServesBelow registry policy parameter)
      (registry.visit (registry.fillAll policy budget) parameter) progress
      (p.postOrder depth arg progress) := by
  obtain ⟨hlt, n, hn, hserves⟩ := harg
  obtain ⟨provenance, others, slot⟩ := n
  rw [Node.Serves] at hserves
  unfold Registry.visit
  cases hfind : registry.find? parameter.key with
  | none =>
      rw [hfind] at hserves
      cases hserves
      cases h.mirror.node _ _ hn with
      | defaulted => exact postOrder_defaulted (by omega) hn progress
  | some d =>
      rw [hfind] at hserves
      obtain ⟨chosen, hprovenance⟩ := hserves
      cases hprovenance
      exact (hvisits arg d budget progress (by omega) ⟨chosen, others, slot, hn⟩
        (hbuildable d hfind)).mono (Nat.le_refl _) fun r hr => ⟨d, hfind, hr⟩

theorem realizes_args {depth i budget : Nat} (h : p.Linked registry policy table)
    (hvisits : Visits registry policy p handle table depth) (hi : i ≤ depth)
    {parameters : List (Parameter H)} {args : List NodeId}
    (hargs : List.Forall₂ (ServedBelow registry p.nodes i) parameters args)
    (hbuildable : ∀ parameter ∈ parameters, ∀ d, registry.find? parameter.key = some d →
      registry.Buildable policy budget d) (progress : Marks × Array NodeId) :
    Realizes registry policy p handle table i
      (fun r => ∃ parameter ∈ parameters, ServesBelow registry policy parameter r)
      (parameters.forM (registry.visit (registry.fillAll policy budget))) progress
      (args.foldl (fun progress arg => p.postOrder depth arg progress) progress) := by
  induction hargs generalizing progress with
  | nil => exact .refl fun _ _ => rfl
  | @cons parameter arg parameters args hhead _ ih =>
      have hown := hbuildable parameter (by simp)
      have hrest := ih (fun other hother => hbuildable other (by simp [hother]))
        (p.postOrder depth arg progress)
      refine ((realizes_arg h hvisits hi hhead hown progress).andThen hrest hhead.1
        (visit_keeps_and_fills hown)).mono (Nat.le_refl _) ?_
      rintro r (hserves | ⟨other, hother, hserves⟩)
      · exact ⟨parameter, by simp, hserves⟩
      · exact ⟨other, by simp [hother], hserves⟩

theorem fills_own (h : p.Linked registry policy table) {id : NodeId} {r : Registration H}
    {chosen : Constructor H} {args : List NodeId} {slot : Option SlotId} {depth : Nat}
    {s : Store H} (hn : p.nodes[id.index]? = some ⟨.constructed r chosen, args, slot⟩)
    (hbuildable : registry.Buildable policy (depth + 1) r)
    (hbelow : ∀ d, registry.DependsOn policy r d → registry.Filled policy s.cells d) :
    p.fills handle table (if slot.isSome then [id] else []) s =
      registry.fillOwn policy (registry.evaluate policy depth) r s := by
  have hexpression := getElem?_expressions hn (h.mirror.node _ _ hn).args_lt
  cases slot with
  | none =>
      have hcell : r.cell? = none := by
        cases h.mirror.node _ _ hn with
        | transient _ hlifetime _ _ => simp [Registration.cell?, hlifetime]
      unfold Registry.fillOwn
      rw [hcell]
      rfl
  | some slot =>
      have hstep : p.fillStep? p.expressions id = some (.fill slot r.key
          (Node.express ⟨.constructed r chosen, args, some slot⟩ p.expressions).build) := by
        unfold fillStep? node?
        rw [hn, hexpression]
        rfl
      unfold fills
      rw [Option.isSome_some, if_pos rfl, List.filterMap_cons, hstep]
      refine Eq.trans ?_ (h.fillStep_eq handle hn hbuildable hbelow)
      simp only [List.filterMap_nil, List.forM_eq_forM, List.forM_cons, List.forM_nil]
      exact congrFun (bind_pure_unit (m := EStateM Failure (Store H))) s

theorem realizes_own (h : p.Linked registry policy table) {id : NodeId} {r : Registration H}
    {chosen : Constructor H} {args : List NodeId} {slot : Option SlotId} {budget : Nat}
    {visited : Marks} {order : Array NodeId} {mid : Marks × Array NodeId}
    (hn : p.nodes[id.index]? = some ⟨.constructed r chosen, args, slot⟩)
    (hchosen : policy.choose? r.constructors = some chosen)
    (hbuildable : registry.Buildable policy (budget + 1) r)
    (hargs : Realizes registry policy p handle table id.index
      (fun e => ∃ parameter ∈ chosen.parameters, ∃ d, registry.find? parameter.key = some d ∧
        registry.Reaches policy d e)
      (chosen.parameters.forM (registry.visit (registry.fillAll policy budget)))
      (visited.add id, order) mid) :
    Realizes registry policy p handle table (id.index + 1) (registry.Reaches policy r)
      (registry.fillAll policy (budget + 1) r) (visited, order)
      (mid.1, if slot.isSome then mid.2.push id else mid.2) where
  steps := by
    obtain ⟨ids, hids, hdo⟩ := hargs.steps
    refine ⟨ids ++ if slot.isSome then [id] else [], ?_, ?_⟩
    · cases slot <;> simp [hids]
    intro s hs
    have hparts : p.fills handle table ids s =
        chosen.parameters.forM (registry.visit (registry.fillAll policy budget)) s := by
      apply hdo s
      intro other hmark hother d hd
      rcases has_add hmark with heq | hbefore
      · omega
      · exact hs other hbefore (by omega) d hd
    have hfilled := Registry.visit_ends (s := s) hchosen fun parameter hparameter d hfind u =>
      Registry.fillAll_ends (s := u) (hbuildable.of_parameter hchosen hparameter hfind)
    rw [fills_append, Registry.fillAll_succ hchosen]
    cases hresult : chosen.parameters.forM
        (registry.visit (registry.fillAll policy budget)) s with
    | ok _ t =>
        rw [hresult] at hfilled
        rw [Action.bind_of_ok _ (hparts.trans hresult), Action.bind_of_ok _ hresult]
        exact fills_own h hn hbuildable hfilled.2
    | error e t =>
        rw [Action.bind_of_error _ (hparts.trans hresult), Action.bind_of_error _ hresult]
  marks := by
    intro other hmark
    rcases hargs.marks other hmark with hmarked | ⟨hother, hreached⟩
    · rcases has_add hmarked with heq | hbefore
      · refine Or.inr ⟨by omega, ?_⟩
        intro d hd
        rw [heq] at hd
        exact hd.unique ⟨chosen, args, slot, hn⟩ ▸ .refl
      · exact Or.inl hbefore
    · refine Or.inr ⟨by omega, ?_⟩
      intro d hd
      obtain ⟨parameter, hparameter, e, hfind, he⟩ := hreached d hd
      exact .head ⟨chosen, hchosen, parameter, hparameter, hfind⟩ he

/-- Traversing a node fills what its registration reaches: its arguments first, then the node
itself if it has a slot. -/
theorem visits (h : p.Linked registry policy table) (depth : Nat) :
    Visits registry policy p handle table depth := by
  induction depth with
  | zero =>
      intro id r budget progress hlt
      omega
  | succ depth ih =>
      rintro id r budget ⟨visited, order⟩ hlt hstands hbuildable
      obtain ⟨chosen, args, slot, hn⟩ := hstands
      obtain ⟨budget, rfl⟩ := hbuildable.exists_succ
      have hnode : p.node? id = some ⟨.constructed r chosen, args, slot⟩ := hn
      unfold postOrder
      rw [hnode]
      cases hvisited : visited.has id with
      | true =>
          refine .refl ?_
          intro s hs
          exact Registry.fillAll_of_filled hbuildable
            (hs id hvisited (Nat.lt_succ_self _) r ⟨chosen, args, slot, hn⟩)
      | false =>
          obtain ⟨-, hchosen, hargs⟩ := (h.mirror.node _ _ hn).served
          apply realizes_own h hn hchosen hbuildable
          exact realizes_args h ih (Nat.le_of_lt_succ hlt) hargs
            (fun parameter hparameter d => hbuildable.of_parameter hchosen hparameter) _

end Plan

end Wiring
