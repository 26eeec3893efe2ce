import Wiring.Proofs.Elementwise
import Wiring.Proofs.Survey.Resolvable

/-!
Planned arenas mirror the registry: every node is a registration with its chosen constructor, whose
arguments stand earlier and serve the constructor's parameters one by one, or the default of a
parameter that no registration serves. Singletons and slots name each other.
-/

namespace Wiring

variable {H : Host}

/-- Everything in the first array stands at the same position in the second. -/
def Grows {α : Type} (a b : Array α) : Prop :=
  ∀ (i : Nat) (x : α), a[i]? = some x → b[i]? = some x

namespace Grows

variable {α : Type} {a b c : Array α}

theorem refl (a : Array α) : Grows a a := fun _ _ h => h

theorem trans (hab : Grows a b) (hbc : Grows b c) : Grows a c :=
  fun i x h => hbc i x (hab i x h)

theorem push (a : Array α) (x : α) : Grows a (a.push x) := by
  intro i y hy
  have hi : i < a.size := (Array.getElem?_eq_some_iff.mp hy).1
  rw [Array.getElem?_push_lt hi, ← hy]
  exact (Array.getElem?_eq_getElem hi).symm

end Grows

/-- The node gives a parameter what the registry holds for it: the service, or else the default. -/
def Node.Serves (registry : Registry H) (parameter : Parameter H) (n : Node H) : Prop :=
  match registry.find? parameter.key with
  | some d => ∃ chosen, n.provenance = .constructed d chosen
  | none => n.provenance = .defaulted parameter

def ServedBelow (registry : Registry H) (nodes : Array (Node H)) (i : Nat)
    (parameter : Parameter H) (id : NodeId) : Prop :=
  id.index < i ∧ ∃ n, nodes[id.index]? = some n ∧ n.Serves registry parameter

/-- What the node at position `i` of an arena looks like. -/
inductive Mirrored (registry : Registry H) (policy : ConstructorPolicy) (nodes : Array (Node H))
    (slots : Array NodeId) (i : Nat) : Node H → Prop
  | transient {r : Registration H} {chosen : Constructor H} {args : List NodeId}
      (hmem : r ∈ registry.toList) (hlifetime : r.lifetime = .transient)
      (hchosen : policy.choose? r.constructors = some chosen)
      (hargs : List.Forall₂ (ServedBelow registry nodes i) chosen.parameters args) :
      Mirrored registry policy nodes slots i ⟨.constructed r chosen, args, none⟩
  | singleton {r : Registration H} {chosen : Constructor H} {args : List NodeId} {slot : SlotId}
      (hmem : r ∈ registry.toList) (hlifetime : r.lifetime = .singleton)
      (hchosen : policy.choose? r.constructors = some chosen)
      (hargs : List.Forall₂ (ServedBelow registry nodes i) chosen.parameters args)
      (hslot : slots[slot.index]? = some (NodeId.ofIndex i)) :
      Mirrored registry policy nodes slots i ⟨.constructed r chosen, args, some slot⟩
  | defaulted {parameter : Parameter H} (hfind : registry.find? parameter.key = none) :
      Mirrored registry policy nodes slots i ⟨.defaulted parameter, [], none⟩

structure Mirror (registry : Registry H) (policy : ConstructorPolicy) (nodes : Array (Node H))
    (slots : Array NodeId) : Prop where
  node : ∀ (i : Nat) (n : Node H), nodes[i]? = some n →
    Mirrored registry policy nodes slots i n
  slot : ∀ (k : Nat) (id : NodeId), slots[k]? = some id →
    ∃ r chosen args slot, nodes[id.index]? = some ⟨.constructed r chosen, args, some slot⟩
  size_le : slots.size ≤ nodes.size

variable {registry : Registry H} {policy : ConstructorPolicy} {nodes more : Array (Node H)}
  {slots moreSlots : Array NodeId}

theorem ServedBelow.grow {i : Nat} {parameter : Parameter H} {id : NodeId}
    (h : ServedBelow registry nodes i parameter id) (hnodes : Grows nodes more) :
    ServedBelow registry more i parameter id := by
  obtain ⟨hlt, n, hn, hserves⟩ := h
  exact ⟨hlt, n, hnodes _ _ hn, hserves⟩

theorem Mirrored.grow {i : Nat} {n : Node H} (h : Mirrored registry policy nodes slots i n)
    (hnodes : Grows nodes more) (hslots : Grows slots moreSlots) :
    Mirrored registry policy more moreSlots i n := by
  cases h with
  | transient hmem hlifetime hchosen hargs =>
      exact .transient hmem hlifetime hchosen (hargs.imp fun _ _ h => h.grow hnodes)
  | singleton hmem hlifetime hchosen hargs hslot =>
      exact .singleton hmem hlifetime hchosen (hargs.imp fun _ _ h => h.grow hnodes)
        (hslots _ _ hslot)
  | defaulted hfind => exact .defaulted hfind

theorem Mirrored.served {i : Nat} {r : Registration H} {chosen : Constructor H}
    {args : List NodeId} {slot : Option SlotId}
    (h : Mirrored registry policy nodes slots i ⟨.constructed r chosen, args, slot⟩) :
    r ∈ registry.toList ∧ policy.choose? r.constructors = some chosen ∧
      List.Forall₂ (ServedBelow registry nodes i) chosen.parameters args := by
  cases h with
  | transient hmem _ hchosen hargs => exact ⟨hmem, hchosen, hargs⟩
  | singleton hmem _ hchosen hargs _ => exact ⟨hmem, hchosen, hargs⟩

theorem Mirrored.args_lt {i : Nat} {n : Node H} (h : Mirrored registry policy nodes slots i n) :
    ∀ arg ∈ n.args, arg.index < i := by
  have hbelow : ∀ {parameters : List (Parameter H)} {args : List NodeId},
      List.Forall₂ (ServedBelow registry nodes i) parameters args →
        ∀ arg ∈ args, arg.index < i := by
    intro parameters args hargs arg harg
    obtain ⟨-, -, hlt, -⟩ := exists_of_forall₂_right hargs arg harg
    exact hlt
  cases h with
  | transient _ _ _ hargs => exact hbelow hargs
  | singleton _ _ _ hargs _ => exact hbelow hargs
  | defaulted => exact List.forall_mem_nil _

theorem Mirrored.slot_eq_none_iff {i : Nat} {n : Node H}
    (h : Mirrored registry policy nodes slots i n) :
    n.slot = none ↔ n.lifetime = .transient := by
  cases h with
  | transient _ hlifetime => simp [Node.lifetime, hlifetime]
  | singleton _ hlifetime => simp [Node.lifetime, hlifetime]
  | defaulted => simp [Node.lifetime]

namespace Mirror

theorem nil : Mirror registry policy #[] #[] where
  node := by
    intro i n hn
    simp at hn
  slot := by
    intro k id hid
    simp at hid
  size_le := Nat.le_refl _

theorem push (h : Mirror registry policy nodes slots) {n : Node H}
    (hn : Mirrored registry policy nodes slots nodes.size n) :
    Mirror registry policy (nodes.push n) slots where
  node := by
    intro i m hm
    rw [Array.getElem?_push] at hm
    split at hm
    next hi =>
      cases hm
      exact hi ▸ hn.grow (.push _ _) (.refl _)
    next => exact (h.node i m hm).grow (.push _ _) (.refl _)
  slot := by
    intro k id hid
    obtain ⟨r, chosen, args, slot, hnode⟩ := h.slot k id hid
    exact ⟨r, chosen, args, slot, Grows.push _ _ _ _ hnode⟩
  size_le := by
    have := h.size_le
    rw [Array.size_push]
    omega

theorem push_slot (h : Mirror registry policy nodes slots) (hfits : nodes.size < UInt32.size)
    {r : Registration H} {chosen : Constructor H} {args : List NodeId}
    (hmem : r ∈ registry.toList) (hlifetime : r.lifetime = .singleton)
    (hchosen : policy.choose? r.constructors = some chosen)
    (hargs : List.Forall₂ (ServedBelow registry nodes nodes.size) chosen.parameters args) :
    Mirror registry policy
      (nodes.push ⟨.constructed r chosen, args, some (.ofIndex slots.size)⟩)
      (slots.push (.ofIndex nodes.size)) where
  node := by
    have hslots : slots.size < UInt32.size := Nat.lt_of_le_of_lt h.size_le hfits
    intro i m hm
    rw [Array.getElem?_push] at hm
    split at hm
    next hi =>
      cases hm
      rw [hi]
      refine .singleton hmem hlifetime hchosen
        (hargs.imp fun _ _ h => h.grow (.push _ _)) ?_
      rw [SlotId.index_ofIndex hslots]
      simp
    next => exact (h.node i m hm).grow (.push _ _) (.push _ _)
  slot := by
    intro k id hid
    rw [Array.getElem?_push] at hid
    split at hid
    next =>
      cases hid
      refine ⟨r, chosen, args, .ofIndex slots.size, ?_⟩
      rw [NodeId.index_ofIndex hfits]
      simp
    next =>
      obtain ⟨d, other, others, slot, hnode⟩ := h.slot k id hid
      exact ⟨d, other, others, slot, Grows.push _ _ _ _ hnode⟩
  size_le := by
    have := h.size_le
    simp only [Array.size_push]
    omega

end Mirror

namespace Survey

/-- The survey's arena mirrors the registry, and its memory leads to the nodes of the singletons
that the registry holds. -/
structure Mirrors (registry : Registry H) (policy : ConstructorPolicy) (s : Survey H) : Prop where
  arena : Mirror registry policy s.nodes s.slots
  memory : ∀ (key : Key) (id : NodeId), s.planned[key]? = some id →
    ∃ n r chosen, s.nodes[id.index]? = some n ∧ n.provenance = .constructed r chosen ∧
      registry.find? key = some r

theorem Mirrors.start : (start (H := H)).Mirrors registry policy where
  arena := .nil
  memory := by
    intro key id hnone
    simp [Survey.start] at hnone

theorem append_grows (s : Survey H) (provenance : Provenance H) (args : List NodeId)
    (lifetime : Lifetime) : Grows s.nodes (s.append provenance args lifetime).2.nodes := by
  cases lifetime <;> exact .push _ _

theorem append_node (s : Survey H) (provenance : Provenance H) (args : List NodeId)
    (lifetime : Lifetime) (hfits : s.nodes.size < UInt32.size) :
    ∃ n, (s.append provenance args lifetime).2.nodes[
        (s.append provenance args lifetime).1.index]? = some n ∧ n.provenance = provenance := by
  cases lifetime <;>
    · simp only [append]
      rw [NodeId.index_ofIndex hfits, Array.getElem?_push_size]
      exact ⟨_, rfl, rfl⟩

@[simp] theorem remember_slots (s : Survey H) (r : Registration H) (id : NodeId) :
    (s.remember r id).slots = s.slots := by
  unfold remember
  cases r.lifetime <;> rfl

theorem Mirrors.append_memory {s : Survey H} (hs : s.Mirrors registry policy)
    (provenance : Provenance H) (args : List NodeId) (lifetime : Lifetime) (key : Key)
    (id : NodeId) (hplanned : (s.append provenance args lifetime).2.planned[key]? = some id) :
    ∃ n r chosen, (s.append provenance args lifetime).2.nodes[id.index]? = some n ∧
      n.provenance = .constructed r chosen ∧ registry.find? key = some r := by
  rw [append_planned] at hplanned
  obtain ⟨n, r, chosen, hn, hprovenance, hfind⟩ := hs.memory key id hplanned
  exact ⟨n, r, chosen, s.append_grows _ _ _ _ _ hn, hprovenance, hfind⟩

theorem Mirrors.append_registration {s : Survey H} (hs : s.Mirrors registry policy)
    (hfits : s.nodes.size < UInt32.size) {r : Registration H} {chosen : Constructor H}
    {args : List NodeId} (hmem : r ∈ registry.toList)
    (hchosen : policy.choose? r.constructors = some chosen)
    (hargs : List.Forall₂ (ServedBelow registry s.nodes s.nodes.size) chosen.parameters args) :
    (s.append (.constructed r chosen) args r.lifetime).2.Mirrors registry policy where
  arena := by
    cases hlifetime : r.lifetime with
    | singleton => exact hs.arena.push_slot hfits hmem hlifetime hchosen hargs
    | transient => exact hs.arena.push (.transient hmem hlifetime hchosen hargs)
  memory := hs.append_memory _ _ _

theorem Mirrors.append_default {s : Survey H} (hs : s.Mirrors registry policy)
    {parameter : Parameter H} (hfind : registry.find? parameter.key = none) :
    (s.append (.defaulted parameter) [] .transient).2.Mirrors registry policy where
  arena := hs.arena.push (.defaulted hfind)
  memory := hs.append_memory _ _ _

theorem Mirrors.remember_registration {s : Survey H} (hs : s.Mirrors registry policy)
    (hr : registry.Assembled) {r : Registration H} (hmem : r ∈ registry.toList) {id : NodeId}
    {n : Node H} {chosen : Constructor H} (hn : s.nodes[id.index]? = some n)
    (hprovenance : n.provenance = .constructed r chosen) :
    (s.ascend.remember r id).Mirrors registry policy where
  arena := by
    rw [remember_nodes, remember_slots]
    exact hs.arena
  memory := by
    intro key other hplanned
    rw [remember_nodes]
    rcases planned_remember hplanned with ⟨hkey, -, rfl⟩ | hbefore
    · refine ⟨n, r, chosen, hn, hprovenance, ?_⟩
      rw [← registry.find?_congr hkey]
      exact hr.coherent.find?_self hmem
    · exact hs.memory key other hbefore

end Survey

namespace Surveyed

variable {options : Options}

theorem grows {errand : Errand H} {s t : Survey H} {ids : List NodeId}
    (h : Surveyed registry options errand s ids t) : Grows s.nodes t.nodes := by
  induction h with
  | known => exact .refl _
  | fresh hknown hinside hchosen hargs ih =>
      rw [Survey.remember_nodes]
      exact ih.trans (Survey.append_grows _ _ _ _)
  | nil => exact .refl _
  | registered _ _ _ ihd ihrest => exact ihd.trans ihrest
  | @missing parent parameter rest s t others hfind hpolicy hrest ih =>
      exact ((Planner.noteDefault s parent parameter).append_grows _ _ _).trans ih

/-- The nodes stand for what the errand asks for. -/
def Answers (registry : Registry H) (nodes : Array (Node H)) : Errand H → List NodeId → Prop
  | .registration r, ids =>
      ∃ id n chosen, ids = [id] ∧ nodes[id.index]? = some n ∧
        n.provenance = .constructed r chosen
  | .parameters _ parameters, ids =>
      List.Forall₂ (fun parameter id => ∃ n, nodes[id.index]? = some n ∧
        n.Serves registry parameter) parameters ids

/-- A successful survey leaves an arena that mirrors the registry, as long as node numbers do not
run out. -/
theorem mirrors {errand : Errand H} {s t : Survey H} {ids : List NodeId}
    (h : Surveyed registry options errand s ids t) (hr : registry.Assembled)
    (herrand : Registered registry errand) (hs : s.Mirrors registry options.constructorPolicy)
    (hfits : t.nodes.size ≤ UInt32.size) :
    t.Mirrors registry options.constructorPolicy ∧ Answers registry t.nodes errand ids := by
  induction h with
  | @known r s id hknown =>
      obtain ⟨n, d, chosen, hn, hprovenance, hfind⟩ :=
        hs.memory _ _ (Survey.known?_eq_some hknown).2
      rw [hr.coherent.find?_self herrand, Option.some.injEq] at hfind
      subst hfind
      exact ⟨hs, id, n, chosen, rfl, hn, hprovenance⟩
  | @fresh r s mid chosen args hknown hinside hchosen hargs ih =>
      rw [Survey.remember_nodes, Survey.ascend, Survey.size_append] at hfits
      have hroom : mid.nodes.size < UInt32.size := by omega
      obtain ⟨hmid, hserved⟩ := ih trivial ⟨hs.arena, hs.memory⟩ (by omega)
      have hbelow : List.Forall₂ (ServedBelow registry mid.nodes mid.nodes.size)
          chosen.parameters args := by
        refine List.Forall₂.imp ?_ hserved
        rintro parameter id ⟨n, hn, hserves⟩
        exact ⟨(Array.getElem?_eq_some_iff.mp hn).1, n, hn, hserves⟩
      have happended := hmid.append_registration hroom herrand hchosen hbelow
      obtain ⟨n, hn, hprovenance⟩ :=
        mid.append_node (.constructed r chosen) args r.lifetime hroom
      refine ⟨happended.remember_registration hr herrand hn hprovenance, ?_⟩
      rw [Survey.remember_nodes]
      exact ⟨_, n, chosen, rfl, hn, hprovenance⟩
  | nil => exact ⟨hs, .nil⟩
  | @registered parent d parameter rest s mid t ids others hfind hd hrest ihd ihrest =>
      obtain ⟨hmid, id, n, chosen, rfl, hn, hprovenance⟩ :=
        ihd (Registry.Coherent.mem_of_find? hfind) hs (Nat.le_trans hrest.size_le hfits)
      obtain ⟨ht, hothers⟩ := ihrest trivial hmid hfits
      refine ⟨ht, .cons ⟨n, hrest.grows _ _ hn, ?_⟩ hothers⟩
      rw [Node.Serves, hfind]
      exact ⟨chosen, hprovenance⟩
  | @missing parent parameter rest s t others hfind hpolicy hrest ih =>
      let noted := Planner.noteDefault s parent parameter
      have hroom : noted.nodes.size < UInt32.size := by
        have hsize := hrest.size_le
        rw [Survey.size_append] at hsize
        exact Nat.lt_of_lt_of_le hsize hfits
      have hnoted : noted.Mirrors registry options.constructorPolicy := ⟨hs.arena, hs.memory⟩
      obtain ⟨ht, hothers⟩ := ih trivial (hnoted.append_default hfind) hfits
      obtain ⟨n, hn, hprovenance⟩ :=
        noted.append_node (.defaulted parameter) [] .transient hroom
      refine ⟨ht, .cons ⟨n, hrest.grows _ _ hn, ?_⟩ hothers⟩
      rw [Node.Serves, hfind]
      exact hprovenance

end Surveyed

/-- The plan mirrors the registry below the registration `r`. -/
structure Plan.Mirrors (registry : Registry H) (policy : ConstructorPolicy) (p : Plan H)
    (r : Registration H) : Prop where
  arena : Mirror registry policy p.nodes p.slots
  root : ∃ chosen, p.rootNode.provenance = .constructed r chosen

/-- The node at position `i` is built from the registration. -/
def Plan.Stands (p : Plan H) (i : Nat) (r : Registration H) : Prop :=
  ∃ chosen args slot, p.nodes[i]? = some ⟨.constructed r chosen, args, slot⟩

theorem Plan.Stands.unique {p : Plan H} {i : Nat} {r d : Registration H} (hr : p.Stands i r)
    (hd : p.Stands i d) : r = d := by
  obtain ⟨chosen, args, slot, hr⟩ := hr
  obtain ⟨other, others, otherSlot, hd⟩ := hd
  rw [hr, Option.some.injEq] at hd
  cases hd
  rfl

theorem Plan.exists_stands_iff {p : Plan H} {i : Nat} :
    (∃ r, p.Stands i r) ↔ (p.nodes[i]?.any fun n => !n.isDefaulted) = true := by
  rw [Option.any_eq_true]
  constructor
  · rintro ⟨r, chosen, args, slot, hn⟩
    exact ⟨_, hn, rfl⟩
  · rintro ⟨⟨provenance, args, slot⟩, hn, hregistered⟩
    cases provenance with
    | constructed r chosen => exact ⟨r, chosen, args, slot, hn⟩
    | defaulted => cases hregistered

theorem Plan.Mirrors.stands {p : Plan H} {r : Registration H}
    (h : p.Mirrors registry policy r) : p.Stands p.root.index r := by
  obtain ⟨chosen, hprovenance⟩ := h.root
  have hroot : p.nodes[p.root.index]? = some p.rootNode := p.node?_root
  refine ⟨chosen, p.rootNode.args, p.rootNode.slot, ?_⟩
  rw [hroot, ← hprovenance]

/-- What is planned mirrors the registry below the root's registration, and everything there can be
planned. -/
theorem Registry.mirrors_of_plan {options : Options} (hr : registry.Assembled) {root : Key}
    {plan : Plan H} (hplan : (registry.plan options root).result = .ok plan)
    (hfits : plan.nodes.size ≤ UInt32.size) :
    ∃ r, registry.find? root = some r ∧ plan.Mirrors registry options.constructorPolicy r ∧
      registry.Plannable options r := by
  cases hroot : registry.find? root with
  | none =>
      rw [Registry.plan_of_find?_eq_none hroot] at hplan
      cases hplan
  | some r =>
      have hmem : r ∈ registry.toList := Coherent.mem_of_find? hroot
      obtain ⟨id, t, hplanned, hindex, rfl⟩ := (Registry.plan_eq_ok_iff hroot).mp hplan
      have hsurveyed := Surveyed.of_planRegistration hplanned
      obtain ⟨ht, found, n, chosen, hids, hn, hprovenance⟩ :=
        hsurveyed.mirrors hr hmem .start hfits
      obtain rfl : id = found := List.singleton_inj.mp hids
      have hstart : Surveyed.RemembersPlannable registry options Survey.start := by
        intro key id hnone
        simp [Survey.start] at hnone
      refine ⟨r, rfl, ⟨ht.arena, chosen, ?_⟩, (hsurveyed.plannable hr hmem hstart).1⟩
      rw [Array.getElem?_eq_getElem hindex, Option.some.injEq] at hn
      subst hn
      exact hprovenance

end Wiring
