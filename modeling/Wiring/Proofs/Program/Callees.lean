import Mathlib.Algebra.BigOperators.Group.List.Basic
import Mathlib.Data.Set.Card
import Wiring.Proofs.Plan.CallCount
import Wiring.Proofs.Program.SlotOrder

namespace Wiring

variable {H : Host}

/-- Costs in a forest that is cut into trees: to use a node costs what it costs to build it, unless it
is the root of a tree. If every other node is used once, the trees and the uses at the top cost as
much as all nodes by themselves. -/
theorem forest_sum {positions tops : List Nat} {args : Nat → List Nat} {inline : Nat → Prop}
    [DecidablePred inline] {cost own use : Nat → Nat}
    (hcost : ∀ i ∈ positions, cost i = own i + ((args i).map use).sum)
    (huse : ∀ j, use j = if inline j then cost j else 0)
    (honce : ((positions.flatMap args ++ tops).filter inline).Perm (positions.filter inline)) :
    ((positions.filter fun i => ¬ inline i).map cost).sum + (tops.map use).sum =
      (positions.map own).sum := by
  have htotal : (positions.map cost).sum =
      (positions.map own).sum + ((positions.flatMap args).map use).sum := by
    rw [List.map_congr_left hcost, List.sum_map_add, List.flatMap_def, List.map_flatten,
      List.sum_flatten, List.map_map, List.map_map]
    rfl
  have huses : ((positions.flatMap args).map use).sum + (tops.map use).sum =
      ((positions.filter inline).map cost).sum := by
    rw [← List.sum_append, ← List.map_append, ← (honce.map cost).sum_eq,
      List.map_congr_left fun j _ => huse j, List.sum_map_ite]
    simp
  have hparts := List.sum_map_filter_add_sum_map_filter_not inline cost positions
  omega

theorem perm_filter_of_count {as bs : List Nat} {keep : Nat → Prop} [DecidablePred keep]
    (h : ∀ i, keep i → as.count i = bs.count i) : (as.filter keep).Perm (bs.filter keep) := by
  rw [List.perm_iff_count]
  intro i
  by_cases hi : keep i
  · rw [List.count_filter (by simpa using hi), List.count_filter (by simpa using hi), h i hi]
  · rw [List.count_eq_zero_of_not_mem (by simp [hi]), List.count_eq_zero_of_not_mem (by simp [hi])]

theorem map_range_getElem? {α β : Type} (as : Array α) (f : Option α → β) :
    ((List.range as.size).map fun i => f as[i]?) = as.toList.map fun a => f (some a) := by
  apply List.ext_getElem
  · simp
  · intro i hi _
    simp only [List.length_map, List.length_range] at hi
    simp [hi]

theorem Node.length_callees (n : Node H) (args : List (Operation H)) :
    ((n.operations args).filterMap Operation.callee?).length =
      if n.isDefaulted then 0 else (args.filterMap Operation.callee?).length + 1 := by
  unfold operations isDefaulted
  cases n.provenance with
  | defaulted parameter => rfl
  | constructed registration chosen =>
      cases hadapter : registration.adapter <;> simp [hadapter, Operation.callee?]

namespace Plan

variable {registry : Registry H} {policy : ConstructorPolicy} {p : Plan H} {r : Registration H}

/-- The node at the position is built wherever it is used. -/
def Inline (p : Plan H) (i : Nat) : Prop :=
  ∃ n, p.nodes[i]? = some n ∧ n.slot = none

def argPositions (p : Plan H) (i : Nat) : List Nat :=
  (p.nodes[i]?.map fun n => n.args.map NodeId.index).getD []

def ownCalls (p : Plan H) (i : Nat) : Nat :=
  if p.nodes[i]?.any fun n => !n.isDefaulted then 1 else 0

theorem mem_argPositions {p : Plan H} {i j : Nat} : j ∈ p.argPositions i ↔ Refers p.nodes i j := by
  unfold argPositions Refers
  cases p.nodes[i]? <;> simp

/-- How many constructors are called where the node at the position is built. -/
def buildCalls (p : Plan H) (i : Nat) : Nat :=
  ((p.building i).filterMap Operation.callee?).length

/-- How many constructors are called where the node at the position is used. -/
def useCalls (p : Plan H) (i : Nat) : Nat :=
  ((p.reference i).filterMap Operation.callee?).length

/-- The node at the position is reached from the root without passing through a singleton. -/
inductive Inlined (p : Plan H) : Nat → Prop
  | root (htransient : p.rootNode.lifetime = .transient) : p.Inlined p.root.index
  | arg {i j : Nat} {n : Node H} (h : p.Inlined i) (hrefers : Refers p.nodes i j)
      (hn : p.nodes[j]? = some n) (htransient : n.lifetime = .transient) : p.Inlined j

theorem flatMap_argPositions (p : Plan H) :
    (List.range p.nodes.size).flatMap p.argPositions = references p.nodes := by
  have hpositions := map_range_getElem? p.nodes fun n? =>
    (n?.map fun n => n.args.map NodeId.index).getD []
  exact congrArg List.flatten hpositions

theorem sum_ownCalls (p : Plan H) :
    ((List.range p.nodes.size).map p.ownCalls).sum = constructed p.nodes := by
  have hpositions := map_range_getElem? p.nodes fun n? =>
    if n?.any fun n => !n.isDefaulted then 1 else 0
  change ((List.range p.nodes.size).map p.ownCalls) = _ at hpositions
  simp [hpositions, constructed, List.sum_map_ite, List.countP_eq_length_filter]

theorem getElem?_expressions_eq_none {i : Nat} (hn : p.nodes[i]? = none) :
    p.expressions[i]? = none := by
  rw [Array.getElem?_eq_none_iff] at hn ⊢
  rwa [p.size_expressions]

namespace Compact

theorem buildCalls_eq (h : p.Compact registry policy r) (i : Nat) :
    p.buildCalls i = p.ownCalls i + ((p.argPositions i).map p.useCalls).sum := by
  cases hn : p.nodes[i]? with
  | none =>
      simp [buildCalls, building, ownCalls, argPositions, hn, getElem?_expressions_eq_none hn]
  | some n =>
      have hnode := h.mirrors.arena.node i n hn
      have huses : ((n.args.flatMap fun arg => p.reference arg.index).filterMap
          Operation.callee?).length = ((p.argPositions i).map p.useCalls).sum := by
        rw [List.filterMap_flatMap, List.length_flatMap, argPositions, hn, Option.map_some,
          Option.getD_some, List.map_map]
        rfl
      rw [buildCalls, building_eq hn hnode.args_lt, Node.length_callees, huses, ownCalls, hn]
      cases hnode with
      | defaulted => simp [Node.isDefaulted, argPositions, hn]
      | _ => simp [Node.isDefaulted, Nat.add_comm]

theorem useCalls_eq [DecidablePred p.Inline] (h : p.Compact registry policy r) (i : Nat) :
    p.useCalls i = if p.Inline i then p.buildCalls i else 0 := by
  cases hn : p.nodes[i]? with
  | none =>
      simp [useCalls, reference, buildCalls, building, getElem?_expressions_eq_none hn]
  | some n =>
      have hargs := (h.mirrors.arena.node i n hn).args_lt
      cases hslot : n.slot with
      | none =>
          rw [if_pos ⟨n, hn, hslot⟩, useCalls, reference_of_inline hn hargs hslot, buildCalls]
      | some slot =>
          rw [if_neg, useCalls, reference_of_slot hn hargs hslot]
          · rfl
          · rintro ⟨m, hm, hnone⟩
            rw [hn, Option.some.injEq] at hm
            rw [hm, hnone] at hslot
            cases hslot

theorem inline_of_transient (h : p.Compact registry policy r) {i : Nat} {n : Node H}
    (hn : p.nodes[i]? = some n) (htransient : n.lifetime = .transient) : p.Inline i :=
  ⟨n, hn, (h.mirrors.arena.node i n hn).slot_eq_none_iff.mpr htransient⟩

theorem inline_of_inlined (h : p.Compact registry policy r) {i : Nat} (hi : p.Inlined i) :
    p.Inline i := by
  cases hi with
  | root htransient => exact h.inline_of_transient p.node?_root htransient
  | arg _ _ hn htransient => exact h.inline_of_transient hn htransient

theorem count_inline (h : p.Compact registry policy r) {i : Nat} (hi : p.Inline i) :
    (references p.nodes).count i + [p.root.index].count i = 1 := by
  obtain ⟨n, hn, hslot⟩ := hi
  have honce := h.sprouts.once i n hn hslot
  rw [List.count_append] at honce
  simpa using honce

theorem perm_slots [DecidablePred p.Inline] (h : p.Compact registry policy r) :
    (p.slots.toList.map NodeId.index).Perm
      ((List.range p.nodes.size).filter fun i => ¬ p.Inline i) := by
  have hnodup : (p.slots.toList.map NodeId.index).Nodup := by
    rw [List.nodup_iff_pairwise_ne, List.pairwise_map]
    exact h.ascending.imp fun hlt => Nat.ne_of_lt hlt
  rw [List.perm_ext_iff_of_nodup hnodup (List.nodup_range.filter _)]
  intro i
  rw [List.mem_map, List.mem_filter, List.mem_range, decide_eq_true_eq]
  constructor
  · rintro ⟨id, hid, rfl⟩
    obtain ⟨k, hk⟩ := List.getElem?_of_mem hid
    obtain ⟨n, hn, hslot⟩ := h.exists_node_of_slot (Array.getElem?_toList ▸ hk)
    refine ⟨(Array.getElem?_eq_some_iff.mp hn).1, ?_⟩
    rintro ⟨m, hm, hnone⟩
    rw [Plan.node?, hm, Option.some.injEq] at hn
    rw [← hn, hnone] at hslot
    cases hslot
  · rintro ⟨hi, hinline⟩
    have hn := Array.getElem?_eq_getElem hi
    cases hslot : p.nodes[i].slot with
    | none => exact absurd ⟨_, hn, hslot⟩ hinline
    | some slot =>
        have hid := (h.slot_iff hn slot).mp hslot
        exact ⟨.ofIndex i, Array.mem_toList_iff.mpr (Array.mem_of_getElem? hid),
          NodeId.index_ofIndex (Nat.lt_of_lt_of_le hi h.fits)⟩

theorem sum_buildCalls (h : p.Compact registry policy r) :
    ((p.slots.toList.map NodeId.index).map p.buildCalls).sum + p.useCalls p.root.index =
      constructed p.nodes := by
  classical
  have honce : (((List.range p.nodes.size).flatMap p.argPositions ++ [p.root.index]).filter
      p.Inline).Perm ((List.range p.nodes.size).filter p.Inline) := by
    refine perm_filter_of_count fun i hi => ?_
    have hlt : i < p.nodes.size := (Array.getElem?_eq_some_iff.mp hi.choose_spec.1).1
    rw [flatMap_argPositions, List.count_append, h.count_inline hi]
    exact (List.count_eq_one_of_mem List.nodup_range (List.mem_range.mpr hlt)).symm
  have hsum := forest_sum (fun i _ => h.buildCalls_eq i) h.useCalls_eq honce
  rw [sum_ownCalls] at hsum
  rw [(h.perm_slots.map p.buildCalls).sum_eq]
  simpa using hsum

/-- Of the nodes that are built wherever they are used, those reached from the root without passing
through a singleton are used once by one another or as the root, and the others never. -/
theorem count_inlined (h : p.Compact registry policy r) {positions : List Nat}
    (hmem : ∀ i, i ∈ positions ↔ p.Inlined i) (hpositions : positions.Sublist (.range p.nodes.size))
    {i : Nat} (hi : p.Inline i) :
    (positions.flatMap p.argPositions).count i + [p.root.index].count i = positions.count i := by
  have hle : (positions.flatMap p.argPositions).count i ≤ (references p.nodes).count i := by
    rw [← flatMap_argPositions]
    exact (hpositions.flatMap p.argPositions).count_le i
  have honce := h.count_inline hi
  by_cases hinlined : p.Inlined i
  · rw [List.count_eq_one_of_mem (hpositions.nodup List.nodup_range) ((hmem i).mpr hinlined)]
    have hused : 0 < (positions.flatMap p.argPositions).count i + [p.root.index].count i := by
      rw [← List.count_append, List.count_pos_iff]
      cases hinlined with
      | root => exact List.mem_append_right _ (List.mem_singleton_self _)
      | @arg parent _ _ hparent hrefers =>
          refine List.mem_append_left _ (List.mem_flatMap.mpr ⟨parent, (hmem parent).mpr hparent, ?_⟩)
          exact mem_argPositions.mpr hrefers
    omega
  · rw [List.count_eq_zero_of_not_mem (mt (hmem i).mp hinlined), ← List.count_append,
      List.count_eq_zero]
    obtain ⟨n, hn, hslot⟩ := hi
    have htransient := (h.mirrors.arena.node i n hn).slot_eq_none_iff.mp hslot
    intro hused
    apply hinlined
    rcases List.mem_append.mp hused with hargument | hroot
    · obtain ⟨parent, hparent, hrefers⟩ := List.mem_flatMap.mp hargument
      exact .arg ((hmem parent).mp hparent) (mem_argPositions.mp hrefers) hn htransient
    · obtain rfl := List.mem_singleton.mp hroot
      have hroot : p.nodes[p.root.index]? = some p.rootNode := p.node?_root
      rw [hroot, Option.some.injEq] at hn
      exact .root (hn ▸ htransient)

theorem useCalls_root (h : p.Compact registry policy r) :
    p.useCalls p.root.index = {i | p.Inlined i ∧ ∃ d, p.Stands i d}.ncard := by
  classical
  let positions := (List.range p.nodes.size).filter p.Inlined
  have hmem : ∀ i, i ∈ positions ↔ p.Inlined i := by
    intro i
    rw [List.mem_filter, List.mem_range, decide_eq_true_eq, and_iff_right_iff_imp]
    intro hi
    exact (Array.getElem?_eq_some_iff.mp (h.inline_of_inlined hi).choose_spec.1).1
  have hsublist : positions.Sublist (.range p.nodes.size) := List.filter_sublist
  have honce : ((positions.flatMap p.argPositions ++ [p.root.index]).filter p.Inline).Perm
      (positions.filter p.Inline) := by
    refine perm_filter_of_count fun i hi => ?_
    rw [List.count_append]
    exact h.count_inlined hmem hsublist hi
  have hsum := forest_sum (fun i _ => h.buildCalls_eq i) h.useCalls_eq honce
  have hnone : (positions.filter fun i => ¬ p.Inline i) = [] := by
    rw [List.filter_eq_nil_iff]
    intro i hi
    simpa using h.inline_of_inlined ((hmem i).mp hi)
  have hset : {i | p.Inlined i ∧ ∃ d, p.Stands i d} =
      ((positions.filter fun i => p.nodes[i]?.any fun n => !n.isDefaulted).toFinset : Set Nat) := by
    ext i
    simp [hmem, exists_stands_iff]
  rw [hset, Set.ncard_coe_finset, List.toFinset_card_of_nodup
    ((hsublist.nodup List.nodup_range).filter _)]
  have hown : (positions.map p.ownCalls).sum =
      (positions.filter fun i => p.nodes[i]?.any fun n => !n.isDefaulted).length := by
    unfold ownCalls
    rw [List.sum_map_ite]
    simp
  rw [hnone, hown] at hsum
  simpa using hsum

end Compact

end Plan

/-- The constructors that are called in the initializer and the entry. -/
def Program.callees (program : Program H) : List (Constructor H) :=
  program.initializer.flatMap Instruction.callees ++ program.entry.callees

namespace Program.Implements

variable {registry : Registry H} {policy : ConstructorPolicy} {p : Plan H} {r : Registration H}
  {program : Program H}

theorem length_callees_entry (h : program.Implements registry policy p r) :
    program.entry.callees.length = p.useCalls p.root.index := by
  rw [Instruction.callees, h.operations_entry, Plan.useCalls]

theorem length_callees_initializer (h : program.Implements registry policy p r) :
    (program.initializer.flatMap Instruction.callees).length =
      ((p.slots.toList.map NodeId.index).map p.buildCalls).sum := by
  rw [h.initializer, h.order, List.filterMap_eq_flatMap_toList, List.flatMap_assoc,
    List.length_flatMap, List.map_map]
  congr 1
  apply List.map_congr_left
  intro id hid
  obtain ⟨k, hk⟩ := List.getElem?_of_mem hid
  obtain ⟨d, chosen, args, hn, hfill⟩ := h.exists_node (Array.getElem?_toList ▸ hk)
  have hargs := (h.compact.mirrors.arena.node _ _ hn).args_lt
  rw [hfill, Option.toList_some, List.flatMap_singleton, Instruction.callees_fill,
    Instruction.callees, Plan.operations_build hn hargs]
  rfl

theorem length_callees (h : program.Implements registry policy p r) :
    program.callees.length = constructed p.nodes := by
  rw [callees, List.length_append, h.length_callees_initializer, h.length_callees_entry,
    h.compact.sum_buildCalls]

theorem callees_entry_of_singleton (h : program.Implements registry policy p r)
    (hsingleton : p.rootNode.lifetime = .singleton) : program.entry.callees = [] := by
  classical
  have hroot : p.nodes[p.root.index]? = some p.rootNode := p.node?_root
  rw [← List.length_eq_zero_iff, h.length_callees_entry, h.compact.useCalls_eq, if_neg]
  rintro ⟨n, hn, hslot⟩
  have htransient := (h.compact.mirrors.arena.node _ n hn).slot_eq_none_iff.mp hslot
  rw [hroot, Option.some.injEq] at hn
  rw [← hn, hsingleton] at htransient
  cases htransient

end Program.Implements

end Wiring
