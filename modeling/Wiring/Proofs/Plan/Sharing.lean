import Wiring.Proofs.Plan.Arena

namespace Wiring

variable {H : Host}

/-- The positions that the nodes of an arena have as arguments, once for every use. -/
def references (nodes : Array (Node H)) : List Nat :=
  nodes.toList.flatMap fun n => n.args.map NodeId.index

/-- The node at position `i` has the node at position `j` as an argument. -/
def Refers (nodes : Array (Node H)) (i j : Nat) : Prop :=
  ∃ n, nodes[i]? = some n ∧ ∃ arg ∈ n.args, arg.index = j

/-- The node at position `j` is an argument of the node at position `i`, directly or through others,
or that node itself. -/
abbrev Uses (nodes : Array (Node H)) : Nat → Nat → Prop :=
  Relation.ReflTransGen (Refers nodes)

variable {nodes before mid after : Array (Node H)} {i j : Nat} {n : Node H}

@[simp] theorem references_push (nodes : Array (Node H)) (n : Node H) :
    references (nodes.push n) = references nodes ++ n.args.map NodeId.index := by
  simp [references]

theorem mem_references_iff : j ∈ references nodes ↔ ∃ i, Refers nodes i j := by
  simp only [references, Refers, List.mem_flatMap, List.mem_map]
  constructor
  · rintro ⟨n, hn, hargs⟩
    obtain ⟨i, hi⟩ := List.getElem?_of_mem hn
    exact ⟨i, n, Array.getElem?_toList ▸ hi, hargs⟩
  · rintro ⟨i, n, hn, hargs⟩
    exact ⟨n, List.mem_of_getElem? (Array.getElem?_toList.trans hn), hargs⟩

theorem Refers.grow (h : Refers before i j) (hgrows : Grows before after) : Refers after i j := by
  obtain ⟨n, hn, hargs⟩ := h
  exact ⟨n, hgrows i n hn, hargs⟩

theorem Uses.grow (h : Uses before i j) (hgrows : Grows before after) : Uses after i j := by
  induction h with
  | refl => exact .refl
  | tail _ hstep ih => exact ih.tail (hstep.grow hgrows)

theorem Grows.size_le {α : Type} {a b : Array α} (h : Grows a b) : a.size ≤ b.size := by
  by_contra hlt
  have hlast := h b.size _ (Array.getElem?_eq_getElem (by omega))
  simp at hlast

theorem Grows.eq_of_lt (h : Grows before after) (hi : i < before.size) (hn : after[i]? = some n) :
    before[i]? = some n := by
  have hold := Array.getElem?_eq_getElem hi
  rw [h i _ hold] at hn
  rw [hold, hn]

/-- From one arena to a larger one, every new node is reached from the given positions, and every new
node without a slot is used once, by a node or as one of the given positions. Old nodes without a
slot are not used again. -/
structure Sprouts (before after : Array (Node H)) (tops : List Nat) : Prop where
  grows : Grows before after
  reached : ∀ i, before.size ≤ i → i < after.size →
    ∃ top ∈ tops, Uses after top i
  once : ∀ i n, after[i]? = some n → n.slot = none →
    (references after ++ tops).count i = if i < before.size then (references before).count i else 1

namespace Sprouts

variable {tops more : List Nat}

theorem refl (nodes : Array (Node H)) : Sprouts nodes nodes [] where
  grows := .refl _
  reached := by
    intro i hle hlt
    omega
  once := by
    intro i n hn _
    simp [(Array.getElem?_eq_some_iff.mp hn).1]

theorem again (hn : nodes[i]? = some n) (hslot : n.slot ≠ none) : Sprouts nodes nodes [i] where
  grows := .refl _
  reached := by
    intro j hle hlt
    omega
  once := by
    intro j m hm hnone
    have hne : i ≠ j := by
      rintro rfl
      rw [hn, Option.some.injEq] at hm
      exact hslot (hm ▸ hnone)
    simp [(Array.getElem?_eq_some_iff.mp hm).1, hne]

theorem trans (h : Sprouts before mid tops) (hmore : Sprouts mid after more)
    (hbelow : ∀ top ∈ tops, top < mid.size) : Sprouts before after (tops ++ more) where
  grows := h.grows.trans hmore.grows
  reached := by
    intro i hle hlt
    rcases Nat.lt_or_ge i mid.size with hold | hnew
    · obtain ⟨top, htop, hreached⟩ := h.reached i hle hold
      exact ⟨top, List.mem_append_left _ htop, Uses.grow hreached hmore.grows⟩
    · obtain ⟨top, htop, hreached⟩ := hmore.reached i hnew hlt
      exact ⟨top, List.mem_append_right _ htop, hreached⟩
  once := by
    intro i n hn hslot
    have hlast := hmore.once i n hn hslot
    rw [List.count_append] at hlast
    rw [List.count_append, List.count_append]
    rcases Nat.lt_or_ge i mid.size with hold | hnew
    · have hfirst := h.once i n (hmore.grows.eq_of_lt hold hn) hslot
      rw [List.count_append] at hfirst
      rw [if_pos hold] at hlast
      omega
    · have htops : tops.count i = 0 := by
        rw [List.count_eq_zero]
        intro htop
        have := hbelow i htop
        omega
      have hsize := h.grows.size_le
      rw [if_neg (by omega)] at hlast
      rw [if_neg (by omega)]
      omega

theorem push (h : Sprouts before mid tops) (hargs : n.args.map NodeId.index = tops)
    (hbelow : ∀ j ∈ references mid ++ tops, j < mid.size) :
    Sprouts before (mid.push n) [mid.size] where
  grows := h.grows.trans (.push _ _)
  reached := by
    intro i hle hlt
    refine ⟨mid.size, by simp, ?_⟩
    rw [Array.size_push] at hlt
    rcases Nat.lt_or_ge i mid.size with hold | hnew
    · obtain ⟨top, htop, hreached⟩ := h.reached i hle hold
      have hrefers : Refers (mid.push n) mid.size top := by
        obtain ⟨arg, harg, rfl⟩ := List.mem_map.mp (hargs ▸ htop)
        exact ⟨n, by simp, arg, harg, rfl⟩
      exact .head hrefers (Uses.grow hreached (.push _ _))
    · obtain rfl : i = mid.size := by omega
      exact .refl
  once := by
    intro i m hm hslot
    have hsize := h.grows.size_le
    rw [references_push, hargs, List.count_append]
    have hi := (Array.getElem?_eq_some_iff.mp hm).1
    rw [Array.size_push] at hi
    rcases Nat.lt_or_ge i mid.size with hold | hnew
    · have hne : mid.size ≠ i := by omega
      rw [h.once i m ((Grows.push mid n).eq_of_lt hold hm) hslot]
      simp [hne]
    · obtain rfl : i = mid.size := by omega
      have hunused : (references mid ++ tops).count mid.size = 0 := by
        rw [List.count_eq_zero]
        intro hmem
        exact Nat.lt_irrefl _ (hbelow _ hmem)
      rw [hunused, if_neg (by omega)]
      simp

end Sprouts

namespace Survey

variable {registry : Registry H} {policy : ConstructorPolicy}

theorem append_nodes (s : Survey H) (provenance : Provenance H) (args : List NodeId)
    (lifetime : Lifetime) :
    ∃ slot, (s.append provenance args lifetime).2.nodes =
        s.nodes.push ⟨provenance, args, slot⟩ ∧
      (slot = none ↔ lifetime = .transient) ∧
      (s.append provenance args lifetime).2.slots =
        if slot.isSome then s.slots.push (s.append provenance args lifetime).1 else s.slots := by
  cases lifetime with
  | singleton => exact ⟨some (.ofIndex s.slots.size), rfl, by simp, rfl⟩
  | transient => exact ⟨none, rfl, by simp, rfl⟩

theorem append_index (s : Survey H) (provenance : Provenance H) (args : List NodeId)
    (lifetime : Lifetime) (hfits : s.nodes.size < UInt32.size) :
    (s.append provenance args lifetime).1.index = s.nodes.size := by
  cases lifetime <;> exact NodeId.index_ofIndex hfits

theorem exists_appended (s : Survey H) (provenance : Provenance H) (args : List NodeId)
    (lifetime : Lifetime) {nodes : Array (Node H)} (hfits : s.nodes.size < UInt32.size)
    (hgrows : Grows (s.append provenance args lifetime).2.nodes nodes) :
    ∃ slot, nodes[(s.append provenance args lifetime).1.index]? = some ⟨provenance, args, slot⟩ ∧
      (slot = none ↔ lifetime = .transient) ∧
      (s.append provenance args lifetime).2.slots =
        if slot.isSome then s.slots.push (s.append provenance args lifetime).1 else s.slots := by
  obtain ⟨slot, hpush, hslot, hslots⟩ := s.append_nodes provenance args lifetime
  refine ⟨slot, hgrows _ _ ?_, hslot, hslots⟩
  rw [hpush, s.append_index _ _ _ hfits, Array.getElem?_push_size]

/-- The survey remembers every singleton that has a node, with the node. -/
def Recalls (s : Survey H) : Prop :=
  ∀ (i : Nat) (n : Node H), s.nodes[i]? = some n → n.slot ≠ none →
    s.planned[n.service]? = some (.ofIndex i)

theorem Recalls.append_transient {s : Survey H} (hs : s.Recalls) (provenance : Provenance H)
    (args : List NodeId) : (s.append provenance args .transient).2.Recalls := by
  intro i n hn hslot
  change (s.nodes.push ⟨provenance, args, none⟩)[i]? = some n at hn
  rw [Array.getElem?_push] at hn
  split at hn
  next =>
    cases hn
    exact absurd rfl hslot
  next => exact hs i n hn hslot

theorem Recalls.append_singleton {s : Survey H} (hs : s.Recalls) {r : Registration H}
    (hlifetime : r.lifetime = .singleton) (hnone : s.planned[r.key]? = none)
    {chosen : Constructor H} {args : List NodeId} :
    ((s.append (.constructed r chosen) args .singleton).2.ascend.remember r
      (s.append (.constructed r chosen) args .singleton).1).Recalls := by
  intro i n hn hslot
  rw [remember_nodes] at hn
  change (s.nodes.push ⟨.constructed r chosen, args, _⟩)[i]? = some n at hn
  simp only [remember, hlifetime, ascend, append_planned, Std.TreeMap.getElem?_insert]
  rw [Array.getElem?_push] at hn
  split at hn
  next hi =>
    cases hn
    rw [hi, Node.service, if_pos (Key.cmp_eq_iff.mpr BEq.rfl)]
    rfl
  next =>
    have hold := hs i n hn hslot
    rw [if_neg, hold]
    intro heq
    rw [Std.TreeMap.getElem?_congr heq, hold] at hnone
    cases hnone

/-- Slots are numbered in the order of their nodes. -/
structure SlotsInOrder (s : Survey H) : Prop where
  ascending : s.slots.toList.Pairwise fun a b => a.index < b.index
  below : ∀ id ∈ s.slots.toList, id.index < s.nodes.size

theorem SlotsInOrder.append {s : Survey H} (hs : s.SlotsInOrder)
    (hfits : s.nodes.size < UInt32.size) (provenance : Provenance H) (args : List NodeId)
    (lifetime : Lifetime) : (s.append provenance args lifetime).2.SlotsInOrder := by
  have hbelow : ∀ id ∈ s.slots.toList, id.index < s.nodes.size + 1 :=
    fun id hid => Nat.lt_succ_of_lt (hs.below id hid)
  cases lifetime with
  | transient => exact ⟨hs.ascending, by simpa [Survey.append] using hbelow⟩
  | singleton =>
      have hindex := NodeId.index_ofIndex hfits
      constructor
      · simp only [Survey.append, Array.toList_push]
        rw [List.pairwise_append]
        exact ⟨hs.ascending, by simp, by simpa [hindex] using hs.below⟩
      · simp only [Survey.append, Array.toList_push, Array.size_push]
        exact List.forall_mem_append.mpr ⟨hbelow, by simp [hindex]⟩

theorem Mirrors.remembersNodes {s : Survey H} (hs : s.Mirrors registry policy) :
    s.RemembersNodes := by
  intro key id hplanned
  obtain ⟨n, -, -, hn, -⟩ := hs.memory key id hplanned
  exact (Array.getElem?_eq_some_iff.mp hn).1

theorem Mirrors.exists_of_known {s : Survey H} (hs : s.Mirrors registry policy)
    (hr : registry.Assembled) {r : Registration H} (hmem : r ∈ registry.toList) {id : NodeId}
    (hknown : s.known? r = some id) : ∃ n, s.nodes[id.index]? = some n ∧ n.slot ≠ none := by
  obtain ⟨hlifetime, hplanned⟩ := known?_eq_some hknown
  obtain ⟨n, d, chosen, hn, hprovenance, hfind⟩ := hs.memory _ _ hplanned
  rw [hr.coherent.find?_self hmem, Option.some.injEq] at hfind
  subst hfind
  refine ⟨n, hn, ?_⟩
  rw [ne_eq, (hs.arena.node _ n hn).slot_eq_none_iff, Node.lifetime, hprovenance]
  simp [hlifetime]

end Survey

theorem Mirror.references_lt {registry : Registry H} {policy : ConstructorPolicy}
    {slots : Array NodeId} (h : Mirror registry policy nodes slots) :
    ∀ j ∈ references nodes, j < nodes.size := by
  intro j hj
  obtain ⟨i, n, hn, arg, harg, rfl⟩ := mem_references_iff.mp hj
  exact Nat.lt_trans ((h.node i n hn).args_lt arg harg) (Array.getElem?_eq_some_iff.mp hn).1

namespace Surveyed

variable {registry : Registry H} {options : Options} {errand : Errand H} {s t : Survey H}
  {ids : List NodeId}

/-- A survey appends only what it uses, and uses nothing twice that has no slot. -/
theorem sprouts (h : Surveyed registry options errand s ids t) (hr : registry.Assembled)
    (herrand : Registered registry errand) (hs : s.Mirrors registry options.constructorPolicy)
    (hfits : t.nodes.size ≤ UInt32.size) :
    Sprouts s.nodes t.nodes (ids.map NodeId.index) := by
  induction h with
  | known hknown =>
      obtain ⟨n, hn, hslot⟩ := hs.exists_of_known hr herrand hknown
      exact .again hn hslot
  | @fresh r s mid chosen args hknown hinside hchosen hargs ih =>
      rw [Survey.remember_nodes, Survey.ascend, Survey.size_append] at hfits
      have hinner : (s.descend r.key).Mirrors registry options.constructorPolicy :=
        ⟨hs.arena, hs.memory⟩
      obtain ⟨hmid, -⟩ := hargs.mirrors hr trivial hinner (by omega)
      have hbelow : ∀ j ∈ references mid.nodes ++ args.map NodeId.index, j < mid.nodes.size := by
        refine List.forall_mem_append.mpr ⟨hmid.arena.references_lt, ?_⟩
        rw [List.forall_mem_map]
        exact (hargs.index_lt hinner.remembersNodes).1
      obtain ⟨slot, hnodes, -⟩ := mid.append_nodes (.constructed r chosen) args r.lifetime
      rw [Survey.remember_nodes, Survey.ascend, hnodes, List.map_singleton,
        mid.append_index _ _ _ (by omega)]
      exact (ih trivial hinner (by omega)).push rfl hbelow
  | nil => exact .refl _
  | @registered parent d parameter rest s mid t ids others hfind hd hrest ihd ihrest =>
      have hmem := Registry.Coherent.mem_of_find? hfind
      have hroom := Nat.le_trans hrest.size_le hfits
      obtain ⟨hmid, -⟩ := hd.mirrors hr hmem hs hroom
      rw [List.map_append]
      refine (ihd hmem hs hroom).trans (ihrest trivial hmid hfits) ?_
      rw [List.forall_mem_map]
      exact (hd.index_lt hs.remembersNodes).1
  | @missing parent parameter rest s t others hfind hpolicy hrest ih =>
      let noted := Planner.noteDefault s parent parameter
      have hroom : noted.nodes.size < UInt32.size := by
        have hsize := hrest.size_le
        rw [Survey.size_append] at hsize
        exact Nat.lt_of_lt_of_le hsize hfits
      have hnoted : noted.Mirrors registry options.constructorPolicy := ⟨hs.arena, hs.memory⟩
      have hown : Sprouts s.nodes (noted.append (.defaulted parameter) [] .transient).2.nodes
          [noted.nodes.size] := by
        refine (Sprouts.refl s.nodes).push rfl ?_
        rw [List.append_nil]
        exact hs.arena.references_lt
      rw [List.map_append, List.map_singleton, noted.append_index _ _ _ hroom]
      refine hown.trans (ih trivial (hnoted.append_default hfind) hfits) ?_
      rw [List.forall_mem_singleton, Survey.size_append]
      exact Nat.lt_succ_self _

theorem path_eq (h : Surveyed registry options errand s ids t) : t.path = s.path := by
  induction h with
  | known => rfl
  | fresh hknown hinside hchosen hargs ih =>
      rw [Survey.remember_path, Survey.ascend, Survey.append_path, ih]
      rfl
  | nil => rfl
  | registered _ _ _ ihd ihrest => exact ihrest.trans ihd
  | missing _ _ _ ih => exact ih.trans (Survey.append_path _ _ _ _)

theorem planned_of_inside (h : Surveyed registry options errand s ids t) (key : Key)
    (hkey : s.isInside key = true) : t.planned[key]? = s.planned[key]? := by
  induction h with
  | known => rfl
  | @fresh r s mid chosen args hknown hinside hchosen hargs ih =>
      have hne : ¬ Key.cmp r.key key = .eq := by
        intro heq
        rw [Survey.isInside, List.any_eq_false] at hinside
        obtain ⟨other, hother, hsame⟩ := List.any_eq_true.mp hkey
        exact hinside other hother
          (Key.beq_trans hsame (Key.beq_symm (Key.cmp_eq_iff.mp heq)))
      have hmid : mid.planned[key]? = s.planned[key]? := by
        apply ih
        rw [Survey.isInside, Survey.descend, List.any_cons]
        exact Bool.or_eq_true_iff.mpr (Or.inr hkey)
      rw [← hmid, Survey.planned_remember_of_ne _ hne, Survey.ascend, Survey.append_planned]
  | nil => rfl
  | @registered _ _ _ _ s mid _ _ _ _ hd _ ihd ihrest =>
      rw [ihrest (by rw [Survey.isInside, hd.path_eq]; exact hkey), ihd hkey]
  | missing _ _ hrest ih =>
      rw [ih (by rw [Survey.isInside, Survey.append_path]; exact hkey), Survey.append_planned]
      rfl

theorem recalls (h : Surveyed registry options errand s ids t) (hs : s.Recalls) : t.Recalls := by
  induction h with
  | known => exact hs
  | @fresh r s mid chosen args hknown hinside hchosen hargs ih =>
      have hmid : mid.Recalls := ih hs
      cases hlifetime : r.lifetime with
      | transient =>
          simp only [Survey.remember, hlifetime]
          exact hmid.append_transient _ _
      | singleton =>
          rw [Survey.known?, hlifetime] at hknown
          have hinner := hargs.planned_of_inside r.key (by simp [Survey.isInside, Survey.descend])
          exact hmid.append_singleton hlifetime (hinner.trans hknown)
  | nil => exact hs
  | registered _ _ _ ihd ihrest => exact ihrest (ihd hs)
  | missing _ _ _ ih => exact ih (Survey.Recalls.append_transient hs _ _)

theorem slotsInOrder (h : Surveyed registry options errand s ids t) (hs : s.SlotsInOrder)
    (hfits : t.nodes.size ≤ UInt32.size) : t.SlotsInOrder := by
  induction h with
  | known => exact hs
  | @fresh r s mid chosen args hknown hinside hchosen hargs ih =>
      rw [Survey.remember_nodes, Survey.ascend, Survey.size_append] at hfits
      have hmid : mid.SlotsInOrder := ih ⟨hs.ascending, hs.below⟩ (by omega)
      obtain ⟨hascending, hbelow⟩ :=
        hmid.append (by omega) (.constructed r chosen) args r.lifetime
      constructor
      · rw [Survey.remember_slots]
        exact hascending
      · rw [Survey.remember_slots, Survey.remember_nodes]
        exact hbelow
  | nil => exact hs
  | registered _ _ hrest ihd ihrest =>
      exact ihrest (ihd hs (Nat.le_trans hrest.size_le hfits)) hfits
  | @missing parent parameter rest s t others hfind hpolicy hrest ih =>
      have hsize := hrest.size_le
      rw [Survey.size_append] at hsize
      have hnoted : (Planner.noteDefault s parent parameter).SlotsInOrder :=
        ⟨hs.ascending, hs.below⟩
      exact ih (hnoted.append (Nat.lt_of_lt_of_le hsize hfits) _ _ _) hfits

end Surveyed

end Wiring
