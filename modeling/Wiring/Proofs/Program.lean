import Wiring.Program
import Wiring.Proofs.Plan.Arena

namespace Wiring

variable {H : Host}

theorem Node.express_congr {n : Node H} {earlier other : Array (Expression H)}
    (h : ∀ arg ∈ n.args, earlier[arg.index]? = other[arg.index]?) :
    n.express earlier = n.express other := by
  have hargs : (n.args.filterMap fun arg => (earlier[arg.index]?).map (·.refer)) =
      n.args.filterMap fun arg => (other[arg.index]?).map (·.refer) := by
    apply List.filterMap_congr
    intro arg harg
    rw [h arg harg]
  unfold express
  rw [hargs]

theorem Plan.grows_foldl_express (nodes : List (Node H)) (earlier : Array (Expression H)) :
    Grows earlier (nodes.foldl (fun earlier n => earlier.push (n.express earlier)) earlier) := by
  induction nodes generalizing earlier with
  | nil => exact .refl _
  | cons n rest ih => exact (Grows.push _ _).trans (ih _)

theorem Plan.getElem?_expressions {p : Plan H} {i : Nat} {n : Node H}
    (hn : p.nodes[i]? = some n) (hargs : ∀ arg ∈ n.args, arg.index < i) :
    p.expressions[i]? = some (n.express p.expressions) := by
  have hn : p.nodes.toList[i]? = some n := by rw [Array.getElem?_toList, hn]
  obtain ⟨hi, rfl⟩ := List.getElem?_eq_some_iff.mp hn
  let before := (p.nodes.toList.take i).foldl
    (fun earlier n => earlier.push (Node.express n earlier)) #[]
  have hsize : before.size = i := by
    have hlength : ∀ (nodes : List (Node H)) (earlier : Array (Expression H)),
        (nodes.foldl (fun earlier n => earlier.push (Node.express n earlier)) earlier).size =
          earlier.size + nodes.length := by
      intro nodes
      induction nodes with
      | nil => simp
      | cons n rest ih =>
          intro earlier
          rw [List.foldl_cons, ih]
          simp only [Array.size_push, List.length_cons]
          omega
    rw [hlength, List.length_take]
    simp only [List.size_toArray, List.length_nil]
    omega
  have hgrows : Grows (before.push (p.nodes.toList[i].express before)) p.expressions := by
    unfold Plan.expressions
    rw [← Array.foldl_toList]
    conv => rhs; rw [← List.take_append_drop i p.nodes.toList, List.drop_eq_getElem_cons hi]
    rw [List.foldl_append, List.foldl_cons]
    exact grows_foldl_express _ _
  have hearlier : p.nodes.toList[i].express before =
      p.nodes.toList[i].express p.expressions := by
    apply Node.express_congr
    intro arg harg
    have hlt : arg.index < before.size := hsize ▸ hargs arg harg
    have hget := Array.getElem?_eq_getElem hlt
    rw [hget, hgrows _ _ (Grows.push _ _ _ _ hget)]
  rw [← hearlier]
  apply hgrows _ _
  rw [Array.getElem?_push, if_pos hsize.symm]

namespace Mirror

variable {registry : Registry H} {policy : ConstructorPolicy} {p : Plan H}

theorem lifetime_of_slot (h : Mirror registry policy p.nodes p.slots) {i : Nat}
    {r : Registration H} {chosen : Constructor H} {args : List NodeId} {slot : SlotId}
    (hn : p.nodes[i]? = some ⟨.constructed r chosen, args, some slot⟩) :
    r.lifetime = .singleton := by
  cases h.node i _ hn with
  | singleton _ hlifetime _ _ _ => exact hlifetime

theorem binding_of_slot (h : Mirror registry policy p.nodes p.slots) {i : Nat}
    {r : Registration H} {chosen : Constructor H} {args : List NodeId} {slot : SlotId}
    (hn : p.nodes[i]? = some ⟨.constructed r chosen, args, some slot⟩) :
    Node.binding ⟨.constructed r chosen, args, some slot⟩ = .ok ⟨r.key, r.sequence⟩ := by
  simp [Node.binding, Registration.cell?, h.lifetime_of_slot hn, Node.service]

theorem mapM_binding (h : Mirror registry policy p.nodes p.slots) (ids : List NodeId)
    (hids : ∀ id ∈ ids, id ∈ p.slots.toList) :
    ∃ bindings, (ids.filterMap p.node?).mapM Node.binding = .ok bindings ∧
      List.Forall₂ (fun id binding => ∃ n, p.node? id = some n ∧ n.binding = .ok binding)
        ids bindings := by
  induction ids with
  | nil => exact ⟨[], rfl, .nil⟩
  | cons id rest ih =>
      obtain ⟨bindings, hbindings, hrest⟩ := ih fun other hother => hids other (by simp [hother])
      obtain ⟨k, hk⟩ := List.getElem?_of_mem (hids id (by simp))
      rw [Array.getElem?_toList] at hk
      obtain ⟨r, chosen, args, slot, hn⟩ := h.slot k id hk
      have hbinding := h.binding_of_slot hn
      have hnode : p.node? id = some ⟨.constructed r chosen, args, some slot⟩ := hn
      refine ⟨⟨r.key, r.sequence⟩ :: bindings, ?_, .cons ⟨_, hnode, hbinding⟩ hrest⟩
      rw [List.filterMap_cons_some hnode, List.mapM_cons, hbinding, hbindings]
      rfl

/-- The plan has a program, which binds the slot of each singleton to its service and its cell. -/
theorem exists_program (h : Mirror registry policy p.nodes p.slots)
    (hfits : p.nodes.size ≤ UInt32.size) :
    ∃ program, p.program = .ok program ∧
      program.initializer = p.buildOrder.filterMap (p.fillStep? p.expressions) ∧
      program.entry = p.rootExpression.refer ∧
      program.slots.size = p.slots.size ∧
      ∀ (i : Nat) (r : Registration H) (chosen : Constructor H) (args : List NodeId)
        (slot : SlotId), p.nodes[i]? = some ⟨.constructed r chosen, args, some slot⟩ →
          program.slots[slot.index]? = some ⟨r.key, r.sequence⟩ := by
  obtain ⟨bindings, hbindings, hall⟩ := h.mapM_binding p.slots.toList fun _ h => h
  refine ⟨_, by rw [Plan.program, hbindings]; rfl, rfl, rfl, hall.length_eq.symm, ?_⟩
  intro i r chosen args slot hn
  have hslot : p.slots.toList[slot.index]? = some (.ofIndex i) := by
    cases h.node i _ hn with
    | singleton _ _ _ _ hslot => rw [Array.getElem?_toList, hslot]
  obtain ⟨hlt, hget⟩ := List.getElem?_eq_some_iff.mp hslot
  have hltBindings : slot.index < bindings.length := hall.length_eq ▸ hlt
  obtain ⟨n, hnode, hbinding⟩ := hall.get hlt hltBindings
  have hi : i < UInt32.size :=
    Nat.lt_of_lt_of_le (Array.getElem?_eq_some_iff.mp hn).1 hfits
  rw [List.get_eq_getElem, hget, Plan.node?, NodeId.index_ofIndex hi, hn] at hnode
  cases hnode
  rw [h.binding_of_slot hn] at hbinding
  rw [List.getElem?_toArray, List.getElem?_eq_getElem hltBindings]
  exact congrArg some (Except.ok.inj hbinding).symm

end Mirror

end Wiring
