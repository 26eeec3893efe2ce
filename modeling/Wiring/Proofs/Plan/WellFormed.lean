import Wiring.Proofs.Plan.Sharing
import Wiring.Proofs.Registry.Selection

namespace Wiring

variable {H : Host} {registry : Registry H} {policy : ConstructorPolicy} {p : Plan H}
  {r d : Registration H} {i j : Nat}

/-- What a plan for the registration `r` looks like. -/
structure Plan.WellFormed (registry : Registry H) (policy : ConstructorPolicy) (p : Plan H)
    (r : Registration H) : Prop where
  stands : p.Stands p.root.index r
  root_last : p.root.index + 1 = p.nodes.size
  reached : ∀ i < p.nodes.size, Uses p.nodes p.root.index i
  args_lt : ∀ (i : Nat) (n : Node H), p.nodes[i]? = some n → ∀ arg ∈ n.args, arg.index < i
  constructed : ∀ (i : Nat) (n : Node H) (d : Registration H) (chosen : Constructor H),
    p.nodes[i]? = some n → n.provenance = .constructed d chosen →
      d ∈ registry.toList ∧ policy.Selects d.constructors chosen ∧
        List.Forall₂
          (fun parameter arg => ∃ m, p.node? arg = some m ∧ m.Serves registry parameter)
          chosen.parameters n.args
  defaulted : ∀ (i : Nat) (n : Node H) (parameter : Parameter H), p.nodes[i]? = some n →
    n.provenance = .defaulted parameter →
      registry.find? parameter.key = none ∧ n.args = []
  shared : ∀ d, registry.Reaches policy r d → d.lifetime = .singleton → ∃! i, p.Stands i d
  slotted : ∀ (i : Nat) (n : Node H), p.nodes[i]? = some n →
    (n.slot = none ↔ n.lifetime = .transient)
  slot_iff : ∀ (i : Nat) (n : Node H) (slot : SlotId), p.nodes[i]? = some n →
    (n.slot = some slot ↔ p.slots[slot.index]? = some (.ofIndex i))
  slots : ∀ (k : Nat) (id : NodeId), p.slots[k]? = some id →
    ∃ n, p.node? id = some n ∧ n.slot = some (.ofIndex k)
  used_once : ∀ (i : Nat) (n : Node H), p.nodes[i]? = some n → n.lifetime = .transient →
    i ≠ p.root.index → (references p.nodes).count i = 1

theorem NodeId.ofIndex_index (id : NodeId) : ofIndex id.index = id := by
  simp [ofIndex, index]

theorem NodeId.ofIndex_inj (hi : i < UInt32.size) (hj : j < UInt32.size)
    (h : ofIndex i = ofIndex j) : i = j := by
  rw [← index_ofIndex hi, ← index_ofIndex hj, h]

theorem SlotId.ofIndex_index (slot : SlotId) : ofIndex slot.index = slot := by
  simp [ofIndex, index]

namespace Mirror

theorem le_of_uses (h : Mirror registry policy p.nodes p.slots) (huses : Uses p.nodes i j) :
    j ≤ i := by
  induction huses with
  | refl => exact Nat.le_refl _
  | tail _ hstep ih =>
      obtain ⟨n, hn, arg, harg, rfl⟩ := hstep
      exact Nat.le_trans (Nat.le_of_lt ((h.node _ n hn).args_lt arg harg)) ih

theorem stands_of_dependsOn (h : Mirror registry policy p.nodes p.slots) (hr : p.Stands i r)
    (hd : registry.DependsOn policy r d) : ∃ j, Refers p.nodes i j ∧ p.Stands j d := by
  obtain ⟨chosen, args, slot, hn⟩ := hr
  obtain ⟨other, hother, parameter, hparameter, hfind⟩ := hd
  obtain ⟨-, hchosen, hargs⟩ := (h.node i _ hn).served
  rw [hchosen, Option.some.injEq] at hother
  subst hother
  obtain ⟨arg, harg, -, m, hm, hserves⟩ := exists_of_forall₂_left hargs parameter hparameter
  rw [Node.Serves, hfind] at hserves
  obtain ⟨inner, hprovenance⟩ := hserves
  refine ⟨arg.index, ⟨_, hn, arg, harg, rfl⟩, inner, m.args, m.slot, ?_⟩
  rw [hm, ← hprovenance]

theorem stands_of_reaches (h : Mirror registry policy p.nodes p.slots) (hr : p.Stands i r)
    (hd : registry.Reaches policy r d) : ∃ j, Uses p.nodes i j ∧ p.Stands j d := by
  induction hd with
  | refl => exact ⟨i, .refl, hr⟩
  | tail _ hstep ih =>
      obtain ⟨j, huses, hstands⟩ := ih
      obtain ⟨k, hrefers, hk⟩ := h.stands_of_dependsOn hstands hstep
      exact ⟨k, huses.tail hrefers, hk⟩

theorem dependsOn_of_refers (h : Mirror registry policy p.nodes p.slots) (hr : p.Stands i r)
    (hd : p.Stands j d) (hrefers : Refers p.nodes i j) : registry.DependsOn policy r d := by
  obtain ⟨chosen, args, slot, hn⟩ := hr
  obtain ⟨inner, innerArgs, innerSlot, hm⟩ := hd
  obtain ⟨n, hn', arg, harg, rfl⟩ := hrefers
  rw [hn, Option.some.injEq] at hn'
  subst hn'
  obtain ⟨-, hchosen, hargs⟩ := (h.node i _ hn).served
  obtain ⟨parameter, hparameter, -, m, hm', hserves⟩ := exists_of_forall₂_right hargs arg harg
  rw [hm, Option.some.injEq] at hm'
  subst hm'
  refine ⟨chosen, hchosen, parameter, hparameter, ?_⟩
  rw [Node.Serves] at hserves
  cases hfind : registry.find? parameter.key with
  | none =>
      rw [hfind] at hserves
      cases hserves
  | some e =>
      rw [hfind] at hserves
      obtain ⟨other, hother⟩ := hserves
      cases hother
      rfl

theorem reaches_of_uses (h : Mirror registry policy p.nodes p.slots) (hr : p.Stands i r)
    (hd : p.Stands j d) (huses : Uses p.nodes i j) : registry.Reaches policy r d := by
  induction huses using Relation.ReflTransGen.head_induction_on generalizing r with
  | refl => exact hr.unique hd ▸ .refl
  | @head i k hrefers hrest ih =>
      have hk : ∃ e, p.Stands k e := by
        rcases Relation.ReflTransGen.cases_head hrest with rfl | ⟨l, ⟨n, hn, arg, harg, -⟩, -⟩
        · exact ⟨d, hd⟩
        · obtain ⟨provenance, args, slot⟩ := n
          cases h.node k _ hn with
          | transient => exact ⟨_, _, _, _, hn⟩
          | singleton => exact ⟨_, _, _, _, hn⟩
          | defaulted => cases harg
      obtain ⟨e, he⟩ := hk
      exact .head (h.dependsOn_of_refers hr he hrefers) (ih he)

theorem exists_slot (h : Mirror registry policy p.nodes p.slots) (hr : p.Stands i r)
    (hlifetime : r.lifetime = .singleton) :
    ∃ n, p.nodes[i]? = some n ∧ n.slot ≠ none ∧ n.service = r.key := by
  obtain ⟨chosen, args, slot, hn⟩ := hr
  refine ⟨_, hn, ?_, rfl⟩
  rw [ne_eq, (h.node i _ hn).slot_eq_none_iff, Node.lifetime]
  simp [hlifetime]

end Mirror

/-- A plan in which nothing is superfluous: the root uses every node, no service has two nodes with
slots, and slots are numbered in the order of their nodes. -/
structure Plan.Compact (registry : Registry H) (policy : ConstructorPolicy) (p : Plan H)
    (r : Registration H) : Prop where
  mirrors : p.Mirrors registry policy r
  fits : p.nodes.size ≤ UInt32.size
  sprouts : Sprouts #[] p.nodes [p.root.index]
  unique : ∀ (i j : Nat) (n m : Node H), p.nodes[i]? = some n → p.nodes[j]? = some m →
    n.slot ≠ none → m.slot ≠ none → n.service = m.service → i = j
  ascending : p.slots.toList.Pairwise fun a b => a.index < b.index

theorem Registry.exists_survey_of_plan {options : Options} {root : Key}
    (hplan : (registry.plan options root).result = .ok p) :
    ∃ r t, registry.find? root = some r ∧
      Surveyed registry options (.registration r) Survey.start [p.root] t ∧
      p.nodes = t.nodes ∧ p.slots = t.slots := by
  cases hroot : registry.find? root with
  | none =>
      rw [plan_of_find?_eq_none hroot] at hplan
      cases hplan
  | some r =>
      obtain ⟨id, t, hplanned, -, rfl⟩ := (plan_eq_ok_iff hroot).mp hplan
      exact ⟨r, t, rfl, .of_planRegistration hplanned, rfl, rfl⟩

theorem Registry.compact_of_plan {options : Options} (hr : registry.Assembled) {root : Key}
    (hplan : (registry.plan options root).result = .ok p)
    (hfits : p.nodes.size ≤ UInt32.size) :
    ∃ r, registry.find? root = some r ∧ p.Compact registry options.constructorPolicy r := by
  obtain ⟨r, hroot, hmirrors, -⟩ := registry.mirrors_of_plan hr hplan hfits
  obtain ⟨d, t, hd, hsurveyed, hnodes, hslots⟩ := registry.exists_survey_of_plan hplan
  rw [hroot, Option.some.injEq] at hd
  subst hd
  have hrecalls : t.Recalls := hsurveyed.recalls (by simp [Survey.Recalls, Survey.start])
  have hordered := hsurveyed.slotsInOrder ⟨by simp [Survey.start], by simp [Survey.start]⟩
    (hnodes ▸ hfits)
  refine ⟨r, hroot, hmirrors, hfits, ?_, ?_, hslots ▸ hordered.ascending⟩
  · rw [hnodes]
    exact hsurveyed.sprouts hr (Coherent.mem_of_find? hroot) .start (hnodes ▸ hfits)
  · intro i j n m hn hm hnslot hmslot hservice
    have hlt : ∀ {i : Nat} {n : Node H}, p.nodes[i]? = some n → i < UInt32.size := fun hn =>
      Nat.lt_of_lt_of_le (Array.getElem?_eq_some_iff.mp hn).1 hfits
    have hfirst := hrecalls i n (hnodes ▸ hn) hnslot
    have hsecond := hrecalls j m (hnodes ▸ hm) hmslot
    rw [hservice, hsecond, Option.some.injEq] at hfirst
    exact (NodeId.ofIndex_inj (hlt hm) (hlt hn) hfirst).symm

namespace Plan.Compact

theorem reached (h : p.Compact registry policy r) (hi : i < p.nodes.size) :
    Uses p.nodes p.root.index i := by
  obtain ⟨top, htop, huses⟩ := h.sprouts.reached i (Nat.zero_le _) hi
  rw [List.mem_singleton] at htop
  exact htop ▸ huses

theorem reaches (h : p.Compact registry policy r) (hd : p.Stands i d) :
    registry.Reaches policy r d := by
  obtain ⟨chosen, args, slot, hn⟩ := id hd
  exact h.mirrors.arena.reaches_of_uses h.mirrors.stands hd
    (h.reached (Array.getElem?_eq_some_iff.mp hn).1)

theorem root_last (h : p.Compact registry policy r) : p.root.index + 1 = p.nodes.size := by
  have hlt := p.root_lt
  have := h.mirrors.arena.le_of_uses (h.reached (i := p.nodes.size - 1) (by omega))
  omega

theorem shared (h : p.Compact registry policy r) (hd : registry.Reaches policy r d)
    (hlifetime : d.lifetime = .singleton) : ∃! i, p.Stands i d := by
  obtain ⟨i, -, hi⟩ := h.mirrors.arena.stands_of_reaches h.mirrors.stands hd
  refine ⟨i, hi, fun j hj => ?_⟩
  obtain ⟨n, hn, hnslot, hnservice⟩ := h.mirrors.arena.exists_slot hi hlifetime
  obtain ⟨m, hm, hmslot, hmservice⟩ := h.mirrors.arena.exists_slot hj hlifetime
  exact h.unique j i m n hm hn hmslot hnslot (hmservice.trans hnservice.symm)

theorem slots_inj (h : p.Compact registry policy r) {k l : Nat} {id : NodeId}
    (hk : p.slots[k]? = some id) (hl : p.slots[l]? = some id) : k = l := by
  have hascending := List.pairwise_iff_getElem.mp h.ascending
  obtain ⟨hk, hkid⟩ := Array.getElem?_eq_some_iff.mp hk
  obtain ⟨hl, hlid⟩ := Array.getElem?_eq_some_iff.mp hl
  rcases Nat.lt_trichotomy k l with hlt | heq | hgt
  · have := hascending k l (by simpa) (by simpa) hlt
    simp [hkid, hlid] at this
  · exact heq
  · have := hascending l k (by simpa) (by simpa) hgt
    simp [hkid, hlid] at this

theorem slot_iff (h : p.Compact registry policy r) {n : Node H} (hn : p.nodes[i]? = some n)
    (slot : SlotId) : n.slot = some slot ↔ p.slots[slot.index]? = some (.ofIndex i) := by
  have hnode := h.mirrors.arena.node i n hn
  constructor
  · intro hslot
    cases hnode with
    | transient => cases hslot
    | singleton _ _ _ _ hnumber =>
        cases hslot
        exact hnumber
    | defaulted => cases hslot
  · intro hnumber
    have hi := Nat.lt_of_lt_of_le (Array.getElem?_eq_some_iff.mp hn).1 h.fits
    obtain ⟨d, chosen, args, found, hfound⟩ := h.mirrors.arena.slot _ _ hnumber
    rw [NodeId.index_ofIndex hi, hn, Option.some.injEq] at hfound
    subst hfound
    cases hnode with
    | singleton _ _ _ _ hother =>
        rw [← SlotId.ofIndex_index found, h.slots_inj hother hnumber, SlotId.ofIndex_index]

theorem exists_node_of_slot (h : p.Compact registry policy r) {k : Nat} {id : NodeId}
    (hid : p.slots[k]? = some id) : ∃ n, p.node? id = some n ∧ n.slot = some (.ofIndex k) := by
  obtain ⟨d, chosen, args, slot, hn⟩ := h.mirrors.arena.slot k id hid
  have hk : k < UInt32.size := by
    have := (Array.getElem?_eq_some_iff.mp hid).1
    have := h.mirrors.arena.size_le
    have := h.fits
    omega
  refine ⟨_, hn, ?_⟩
  rw [h.slot_iff hn, SlotId.index_ofIndex hk, hid, NodeId.ofIndex_index]

theorem used_once (h : p.Compact registry policy r) {n : Node H} (hn : p.nodes[i]? = some n)
    (hlifetime : n.lifetime = .transient) (hroot : i ≠ p.root.index) :
    (references p.nodes).count i = 1 := by
  have hslot := (h.mirrors.arena.node i n hn).slot_eq_none_iff.mpr hlifetime
  have honce := h.sprouts.once i n hn hslot
  rw [List.count_append] at honce
  simpa [Ne.symm hroot] using honce

theorem wellFormed (h : p.Compact registry policy r) : p.WellFormed registry policy r where
  stands := h.mirrors.stands
  root_last := h.root_last
  reached := fun i => h.reached
  args_lt := fun i n hn => (h.mirrors.arena.node i n hn).args_lt
  constructed := by
    rintro i ⟨provenance, args, slot⟩ d chosen hn rfl
    obtain ⟨hmem, hchosen, hargs⟩ := (h.mirrors.arena.node i _ hn).served
    exact ⟨hmem, ConstructorPolicy.choose?_eq_some_iff.mp hchosen, hargs.imp fun _ _ h => h.2⟩
  defaulted := by
    rintro i ⟨provenance, args, slot⟩ parameter hn rfl
    cases h.mirrors.arena.node i _ hn with
    | defaulted hfind => exact ⟨hfind, rfl⟩
  shared := fun d => h.shared
  slotted := fun i n hn => (h.mirrors.arena.node i n hn).slot_eq_none_iff
  slot_iff := fun i n slot hn => h.slot_iff hn slot
  slots := fun k id => h.exists_node_of_slot
  used_once := fun i n => h.used_once

end Plan.Compact

theorem Registry.plan_wellFormed {options : Options} (hr : registry.Assembled) {root : Key}
    (hplan : (registry.plan options root).result = .ok p)
    (hfits : p.nodes.size ≤ UInt32.size) :
    ∃ r, registry.find? root = some r ∧ p.WellFormed registry options.constructorPolicy r := by
  obtain ⟨r, hroot, hcompact⟩ := registry.compact_of_plan hr hplan hfits
  exact ⟨r, hroot, hcompact.wellFormed⟩

namespace Sample

theorem exists_vehicle : ∃ plan, (Sample.registry.plan {} root).result = .ok plan ∧
    plan.nodes.size = 6 ∧ plan.slots.size = 3 := by
  have hsizes : ((Sample.registry.plan {} root).result.map
      fun plan => (plan.nodes.size, plan.slots.size)).toOption = some (6, 3) := by decide +kernel
  cases hresult : (Sample.registry.plan {} root).result with
  | error e =>
      rw [hresult] at hsizes
      cases hsizes
  | ok plan =>
      rw [hresult] at hsizes
      exact ⟨plan, rfl, Prod.mk.inj (Option.some.inj hsizes)⟩

/-- Of the six nodes in the plan of the vehicle, the battery, the fuse and the motor have slots. -/
theorem vehicle_wellFormed : ∃ plan, (Sample.registry.plan {} root).result = .ok plan ∧
    plan.nodes.size ≤ UInt32.size ∧ plan.slots.size = 3 ∧
      ∃ r, Sample.registry.find? root = some r ∧
        plan.WellFormed Sample.registry .mostParameters r := by
  obtain ⟨plan, hplan, hnodes, hslots⟩ := exists_vehicle
  have hfits : plan.nodes.size ≤ UInt32.size := by
    rw [hnodes]
    decide
  exact ⟨plan, hplan, hfits, hslots, Registry.plan_wellFormed assembled hplan hfits⟩

end Sample

end Wiring
