import Wiring.Proofs.Factory.Steps
import Wiring.Proofs.Program.Operations

namespace Wiring

variable {H : Host}

/-- Fills no slot, and loads only the slots before number `bound`, each as the service that it is
bound to. -/
def Operation.LoadsBefore (slots : Array Binding) (bound : Nat) : Operation H → Prop
  | .load slot service =>
      slot.index < bound ∧ ∃ binding, slots[slot.index]? = some binding ∧ binding.service = service
  | .fill _ _ => False
  | _ => True

/-- The initializer fills the slots one after the other, each from earlier ones, and nothing else in
the program fills a slot. -/
structure Program.InSlotOrder (program : Program H) : Prop where
  length : program.initializer.length = program.slots.size
  step : ∀ (k : Nat) (binding : Binding), program.slots[k]? = some binding →
    ∃ slot value, slot.index = k ∧
      program.initializer[k]? = some (.fill slot binding.service value) ∧
      ∀ operation ∈ value.operations, operation.LoadsBefore program.slots k
  entry : ∀ operation ∈ program.entry.operations,
    operation.LoadsBefore program.slots program.slots.size

/-- Fills no slot, and loads only slots of nodes before position `bound`. -/
def Operation.LoadsBelow (p : Plan H) (bound : Nat) : Operation H → Prop
  | .load slot service =>
      ∃ i < bound, ∃ n, p.nodes[i]? = some n ∧ n.slot = some slot ∧ n.service = service
  | .fill _ _ => False
  | _ => True

theorem Operation.LoadsBelow.mono {p : Plan H} {bound more : Nat} {operation : Operation H}
    (h : operation.LoadsBelow p bound) (hle : bound ≤ more) : operation.LoadsBelow p more := by
  cases operation with
  | load slot service =>
      obtain ⟨i, hi, hload⟩ := h
      exact ⟨i, Nat.lt_of_lt_of_le hi hle, hload⟩
  | _ => exact h

variable {registry : Registry H} {policy : ConstructorPolicy} {p : Plan H} {r : Registration H}
  {program : Program H}

namespace Mirror

theorem building_loads (h : Mirror registry policy p.nodes p.slots) (i : Nat) {n : Node H}
    (hn : p.nodes[i]? = some n) : ∀ operation ∈ p.building i, operation.LoadsBelow p i := by
  induction i using Nat.strong_induction_on generalizing n with
  | _ i ih =>
      have hnode := h.node i n hn
      have hargs : ∀ operation ∈ n.args.flatMap fun arg => p.reference arg.index,
          operation.LoadsBelow p i := by
        intro operation hmem
        obtain ⟨arg, harg, hoperation⟩ := List.mem_flatMap.mp hmem
        have hlt := hnode.args_lt arg harg
        obtain ⟨m, hm⟩ : ∃ m, p.nodes[arg.index]? = some m :=
          ⟨_, Array.getElem?_eq_getElem (Nat.lt_trans hlt (Array.getElem?_eq_some_iff.mp hn).1)⟩
        have hbelow := (h.node _ _ hm).args_lt
        cases hslot : m.slot with
        | none =>
            rw [Plan.reference_of_inline hm hbelow hslot] at hoperation
            exact (ih _ hlt hm operation hoperation).mono (Nat.le_of_lt hlt)
        | some slot =>
            rw [Plan.reference_of_slot hm hbelow hslot, List.mem_singleton] at hoperation
            subst hoperation
            exact ⟨_, hlt, _, hm, hslot, rfl⟩
      intro operation hoperation
      rw [Plan.building_eq hn hnode.args_lt, Node.operations] at hoperation
      cases hprovenance : n.provenance with
      | defaulted parameter =>
          rw [hprovenance] at hoperation
          obtain rfl := List.mem_singleton.mp hoperation
          trivial
      | constructed d chosen =>
          rw [hprovenance] at hoperation
          rcases List.mem_append.mp hoperation with hbefore | hown
          · exact hargs operation hbefore
          · rcases List.mem_cons.mp hown with rfl | hadapt
            · trivial
            · obtain ⟨adapter, -, rfl⟩ := Option.map_eq_some_iff.mp (Option.mem_toList.mp hadapt)
              trivial

theorem reference_loads (h : Mirror registry policy p.nodes p.slots) {i : Nat} {n : Node H}
    (hn : p.nodes[i]? = some n) :
    ∀ operation ∈ p.reference i, operation.LoadsBelow p (i + 1) := by
  have hargs := (h.node i n hn).args_lt
  intro operation hoperation
  cases hslot : n.slot with
  | none =>
      rw [Plan.reference_of_inline hn hargs hslot] at hoperation
      exact (h.building_loads i hn operation hoperation).mono (Nat.le_succ i)
  | some slot =>
      rw [Plan.reference_of_slot hn hargs hslot, List.mem_singleton] at hoperation
      subst hoperation
      exact ⟨i, Nat.lt_succ_self i, n, hn, hslot, rfl⟩

theorem getElem?_slots (h : Mirror registry policy p.nodes p.slots)
    (hfits : p.nodes.size ≤ UInt32.size) (hprogram : p.program = .ok program) {i : Nat}
    {d : Registration H} {chosen : Constructor H} {args : List NodeId} {slot : SlotId}
    (hn : p.nodes[i]? = some ⟨.constructed d chosen, args, some slot⟩) :
    program.slots[slot.index]? = some ⟨d.key, d.sequence⟩ := by
  obtain ⟨other, hother, -, -, -, hbound⟩ := h.exists_program hfits
  rw [hprogram] at hother
  cases hother
  exact hbound i d chosen args slot hn

end Mirror

theorem Operation.LoadsBelow.loadsBefore {i bound : Nat} {operation : Operation H}
    (h : operation.LoadsBelow p i) (hcompact : p.Compact registry policy r)
    (hprogram : p.program = .ok program)
    (hbound : ∀ j < i, ∀ slot : SlotId, p.slots[slot.index]? = some (.ofIndex j) →
      slot.index < bound) : operation.LoadsBefore program.slots bound := by
  cases operation with
  | load slot service =>
      obtain ⟨j, hj, n, hn, hslot, rfl⟩ := h
      refine ⟨hbound j hj slot ((hcompact.slot_iff hn slot).mp hslot), ?_⟩
      cases hcompact.mirrors.arena.node j n hn with
      | singleton =>
          cases hslot
          exact ⟨_, hcompact.mirrors.arena.getElem?_slots hcompact.fits hprogram hn, rfl⟩
      | _ => cases hslot
  | fill => exact h
  | _ => trivial

theorem Program.Implements.operations_entry (h : program.Implements registry policy p r) :
    program.entry.operations = p.reference p.root.index := by
  have hroot : p.nodes[p.root.index]? = some p.rootNode := p.node?_root
  rw [h.entry, h.compact.mirrors.rootExpression_eq]
  exact Plan.operations_refer hroot (h.compact.mirrors.arena.node _ _ hroot).args_lt

theorem Program.Implements.inSlotOrder (h : program.Implements registry policy p r)
    (hprogram : p.program = .ok program) : program.InSlotOrder where
  length := h.length_initializer.trans h.slots.symm
  step := by
    intro k binding hbinding
    have hk : k < p.slots.size := h.slots ▸ (Array.getElem?_eq_some_iff.mp hbinding).1
    have hmirror := h.compact.mirrors.arena
    have hindex : (SlotId.ofIndex k).index = k :=
      SlotId.index_ofIndex (Nat.lt_of_lt_of_le hk (Nat.le_trans hmirror.size_le h.compact.fits))
    obtain ⟨id, d, chosen, args, hid, hn, hstep, -⟩ := h.exists_step hk
    have hbound := hmirror.getElem?_slots h.compact.fits hprogram hn
    rw [hindex, hbinding, Option.some.injEq] at hbound
    subst hbound
    refine ⟨_, _, hindex, hstep, fun operation hoperation => ?_⟩
    rw [Plan.operations_build hn (hmirror.node _ _ hn).args_lt] at hoperation
    apply (hmirror.building_loads id.index hn operation hoperation).loadsBefore h.compact hprogram
    intro j hj slot hslot
    have hfits : j < UInt32.size := by
      have := (Array.getElem?_eq_some_iff.mp hn).1
      have := h.compact.fits
      omega
    exact h.compact.slot_lt hid hslot ((NodeId.index_ofIndex hfits).symm ▸ hj)
  entry := by
    intro operation hoperation
    have hmirror := h.compact.mirrors.arena
    have hroot : p.nodes[p.root.index]? = some p.rootNode := p.node?_root
    rw [h.operations_entry] at hoperation
    apply (hmirror.reference_loads hroot operation hoperation).loadsBefore h.compact hprogram
    intro j _ slot hslot
    exact h.slots ▸ (Array.getElem?_eq_some_iff.mp hslot).1

/-- Traversing a plan finds its singletons in the order of the slot table, and the program fills the
slots in that order. -/
theorem Registry.initializer_in_slot_order {options : Options} (hr : registry.Assembled) {root : Key}
    (hplan : (registry.plan options root).result = .ok p)
    (hfits : p.nodes.size ≤ UInt32.size) :
    p.buildOrder = p.slots.toList ∧ ∃ program, p.program = .ok program ∧
      program.slots.size = p.slots.size ∧ program.InSlotOrder := by
  obtain ⟨r, program, -, hprogram, himplements⟩ := registry.implements_of_plan hr hplan hfits
  exact ⟨himplements.order, program, hprogram, himplements.slots, himplements.inSlotOrder hprogram⟩

namespace Sample

theorem vehicle_in_slot_order : ∃ plan, (Sample.registry.plan {} root).result = .ok plan ∧
    plan.buildOrder = plan.slots.toList ∧ ∃ program, plan.program = .ok program ∧
      program.slots.size = plan.slots.size ∧ program.InSlotOrder := by
  obtain ⟨plan, hplan, hnodes, -⟩ := exists_vehicle
  have hfits : plan.nodes.size ≤ UInt32.size := by
    rw [hnodes]
    decide
  exact ⟨plan, hplan, Registry.initializer_in_slot_order assembled hplan hfits⟩

end Sample

end Wiring
