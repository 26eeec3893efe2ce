import Wiring.Proofs.Factory.Handling
import Wiring.Proofs.Injection.Activity
import Wiring.Proofs.Program

namespace Wiring

variable {H : Host} {registry : Registry H} {policy : ConstructorPolicy} {p : Plan H}
  {handle : Handler H} {table : Array Nat}

/-- The plan mirrors the registry, and the table leads every slot to the cell of its singleton. -/
structure Plan.Linked (registry : Registry H) (policy : ConstructorPolicy) (p : Plan H)
    (table : Array Nat) : Prop where
  mirror : Mirror registry policy p.nodes p.slots
  bound : ∀ (i : Nat) (r : Registration H) (chosen : Constructor H) (args : List NodeId)
    (slot : SlotId), p.nodes[i]? = some ⟨.constructed r chosen, args, some slot⟩ →
      table[slot.index]? = some r.sequence

def Plan.referTo (p : Plan H) (handle : Handler H) (table : Array Nat) (n : Node H) :
    Eval H (Option (Instance H)) :=
  (n.express p.expressions).refer.interpret (Code.handling handle) table

/-- What the instructions that build a node do. -/
def Plan.buildOf (p : Plan H) (handle : Handler H) (table : Array Nat) (n : Node H) :
    Eval H (Option (Instance H)) :=
  (n.express p.expressions).build.interpret (Code.handling handle) table

def Plan.fillOf (p : Plan H) (handle : Handler H) (table : Array Nat) (slot : SlotId)
    (n : Node H) : Eval H (Option (Instance H)) :=
  (Instruction.fill slot n.service (n.express p.expressions).build).interpret
    (Code.handling handle) table

/-- Referring to the node at position `i` supplies the parameters that it serves. -/
def Plan.Supplies (registry : Registry H) (policy : ConstructorPolicy) (p : Plan H)
    (handle : Handler H) (table : Array Nat) (i : Nat) : Prop :=
  ∀ (n : Node H) (parameter : Parameter H) (depth : Nat) (s : Store H), p.nodes[i]? = some n →
    n.Serves registry parameter →
    (∀ d, registry.find? parameter.key = some d →
      registry.Buildable policy depth d ∧ registry.Filled policy s.cells d) →
    p.referTo handle table n s = registry.supply (registry.evaluate policy depth) parameter s

theorem Mirror.forall₂_refer (h : Mirror registry policy p.nodes p.slots) {i : Nat}
    {parameters : List (Parameter H)} {args : List NodeId}
    (hargs : List.Forall₂ (ServedBelow registry p.nodes i) parameters args) :
    List.Forall₂
      (fun instruction parameter => ∃ j n, j < i ∧ p.nodes[j]? = some n ∧
        n.Serves registry parameter ∧ instruction = (n.express p.expressions).refer)
      (args.filterMap fun arg => (p.expressions[arg.index]?).map (·.refer)) parameters := by
  induction hargs with
  | nil => exact .nil
  | @cons parameter arg parameters args hhead _ ih =>
      obtain ⟨hlt, n, hn, hserves⟩ := hhead
      have hexpression : (p.expressions[arg.index]?).map (·.refer) =
          some (n.express p.expressions).refer := by
        rw [Plan.getElem?_expressions hn (h.node _ n hn).args_lt]
        rfl
      rw [List.filterMap_cons, hexpression]
      exact .cons ⟨arg.index, n, hlt, hn, hserves, rfl⟩ ih

namespace Plan.Linked

theorem of_bindings {slots : Array Binding} (hmirror : Mirror registry policy p.nodes p.slots)
    (hbound : ∀ (i : Nat) (r : Registration H) (chosen : Constructor H) (args : List NodeId)
      (slot : SlotId), p.nodes[i]? = some ⟨.constructed r chosen, args, some slot⟩ →
        slots[slot.index]? = some ⟨r.key, r.sequence⟩) :
    p.Linked registry policy (slots.map Binding.cell) where
  mirror := hmirror
  bound := by
    intro i r chosen args slot hn
    rw [Array.getElem?_map, hbound i r chosen args slot hn]
    rfl

variable {i : Nat} {r : Registration H} {chosen : Constructor H} {args : List NodeId}
  {slot : Option SlotId} {depth : Nat} {s : Store H}

theorem supply_each {instructions : List (Instruction H)} {parameters : List (Parameter H)}
    (hearlier : ∀ j < i, p.Supplies registry policy handle table j)
    (hready : ∀ parameter ∈ parameters, ∀ d, registry.find? parameter.key = some d →
      registry.Buildable policy depth d ∧ registry.Filled policy s.cells d)
    (hrefer : List.Forall₂ (fun instruction parameter => ∃ j n, j < i ∧ p.nodes[j]? = some n ∧
      n.Serves registry parameter ∧ instruction = (n.express p.expressions).refer)
      instructions parameters) :
    List.Forall₂ (fun (code : Code H) parameter => ∀ t : Store H, t.cells = s.cells →
      code table t = registry.supply (registry.evaluate policy depth) parameter t ∧
        Action.Ends (fun _ u => u.cells = s.cells) (fun _ _ => True) (code table t))
      (instructions.map (Instruction.interpret (Code.handling handle))) parameters := by
  induction hrefer with
  | nil => exact .nil
  | @cons instruction parameter instructions parameters hhead _ ih =>
      obtain ⟨j, n, hj, hn, hserves, rfl⟩ := hhead
      refine .cons ?_ (ih fun other hother => hready other (by simp [hother]))
      intro t ht
      have hparameter : ∀ d, registry.find? parameter.key = some d →
          registry.Buildable policy depth d ∧ registry.Filled policy t.cells d :=
        ht ▸ hready parameter (by simp)
      have hsupply : p.referTo handle table n t =
          registry.supply (registry.evaluate policy depth) parameter t :=
        hearlier j hj n parameter depth t hn hserves hparameter
      refine ⟨hsupply, ?_⟩
      show Action.Ends _ _ (p.referTo handle table n t)
      rw [hsupply]
      refine (Registry.supply_ends fun d hd =>
        Registry.evaluate_ends (hparameter d hd).1 (hparameter d hd).2).mono ?_
          (fun _ _ _ => trivial)
      rintro value u ⟨hquiet, -⟩
      exact hquiet.2.trans ht

theorem call_eq (h : p.Linked registry policy table) (handle : Handler H)
    (hargs : List.Forall₂ (ServedBelow registry p.nodes i) chosen.parameters args)
    (hearlier : ∀ j < i, p.Supplies registry policy handle table j)
    (hready : ∀ parameter ∈ chosen.parameters, ∀ d, registry.find? parameter.key = some d →
      registry.Buildable policy depth d ∧ registry.Filled policy s.cells d) :
    (Instruction.call chosen
        (args.filterMap fun arg => (p.expressions[arg.index]?).map (·.refer))).interpret
      (Code.handling handle) table s =
      (do
        let values ← chosen.parameters.mapM (registry.supply (registry.evaluate policy depth))
        return some (← chosen.invoke values) : Eval H (Option (Instance H))) s := by
  have hmapM := Action.mapM_congr (I := fun t : Store H => t.cells = s.cells)
    (supply_each hearlier hready (h.mirror.forall₂_refer hargs)) rfl
  simp only [Instruction.interpret, Instruction.interpretAll_eq_map]
  show (List.mapM (fun code : Code H => code table) _ >>= _) s = _
  exact Action.bind_congr _ hmapM

theorem buildOf_eq (h : p.Linked registry policy table)
    (hargs : List.Forall₂ (ServedBelow registry p.nodes i) chosen.parameters args)
    (hchosen : policy.choose? r.constructors = some chosen)
    (hearlier : ∀ j < i, p.Supplies registry policy handle table j)
    (hready : ∀ parameter ∈ chosen.parameters, ∀ d, registry.find? parameter.key = some d →
      registry.Buildable policy depth d ∧ registry.Filled policy s.cells d) :
    p.buildOf handle table ⟨.constructed r chosen, args, slot⟩ s =
      (some <$> registry.assemble policy (registry.evaluate policy depth) r) s := by
  have hbuild : (Node.express ⟨.constructed r chosen, args, slot⟩ p.expressions).build =
      (r.adapter.elim id Instruction.adapt) (.call chosen
        (args.filterMap fun arg => (p.expressions[arg.index]?).map (·.refer))) := by
    unfold Node.express
    dsimp only
    cases r.adapter <;> cases slot <;> rfl
  have hcall := h.call_eq handle hargs hearlier hready
  unfold Plan.buildOf Registry.assemble
  rw [hbuild, hchosen]
  cases r.adapter with
  | none =>
      apply hcall.trans
      simp only [map_bind, map_pure]
  | some adapter =>
      apply (Action.bind_congr _ hcall).trans
      simp only [bind_assoc, pure_bind, map_bind]
      rfl

theorem ready_of_buildable (hchosen : policy.choose? r.constructors = some chosen)
    (hbuildable : registry.Buildable policy (depth + 1) r)
    (hbelow : ∀ d, registry.DependsOn policy r d → registry.Filled policy s.cells d) :
    ∀ parameter ∈ chosen.parameters, ∀ d, registry.find? parameter.key = some d →
      registry.Buildable policy depth d ∧ registry.Filled policy s.cells d := by
  obtain ⟨other, hother, hparts, hdepends⟩ := hbuildable.exists_chosen
  rw [hchosen, Option.some.injEq] at hother
  subst hother
  intro parameter hparameter d hfind
  exact ⟨hparts parameter hparameter d hfind, hbelow d (hdepends parameter hparameter d hfind)⟩

theorem referTo_eq_of_earlier (h : p.Linked registry policy table)
    (hn : p.nodes[i]? = some ⟨.constructed r chosen, args, slot⟩)
    (hearlier : ∀ j < i, p.Supplies registry policy handle table j)
    (hbuildable : registry.Buildable policy depth r) (hfilled : registry.Filled policy s.cells r) :
    p.referTo handle table ⟨.constructed r chosen, args, slot⟩ s =
      (some <$> registry.evaluate policy depth r) s := by
  cases depth with
  | zero => exact hbuildable.elim
  | succ depth =>
      unfold Registry.evaluate
      have hnode := h.mirror.node i _ hn
      cases hnode with
      | transient hmem hlifetime hchosen hargs =>
          have hcell : r.cell? = none := by simp [Registration.cell?, hlifetime]
          rw [hcell]
          have hbuild : p.buildOf handle table ⟨.constructed r chosen, args, none⟩ s =
              (some <$> registry.assemble policy (registry.evaluate policy depth) r) s :=
            h.buildOf_eq hargs hchosen hearlier
              (ready_of_buildable hchosen hbuildable fun d hd => hfilled.of_dependsOn hd)
          exact hbuild
      | @singleton _ _ _ slot hmem hlifetime hchosen hargs hslot =>
          have hcell := Registration.cell?_eq_some_iff.mpr ⟨hlifetime, rfl⟩
          obtain ⟨object, hobject⟩ :=
            Option.isSome_iff_exists.mp (hfilled r .refl r.sequence hcell)
          have hload : p.referTo handle table ⟨.constructed r chosen, args, some slot⟩ s =
              .ok (some object) s := by
            change Code.handledLoad handle slot _ table s = _
            unfold Code.handledLoad
            rw [h.bound i r chosen args slot hn]
            simp [hobject]
          rw [hload, hcell]
          simp only [map_bind, Action.get_bind, hobject]
          rfl

theorem supplies (h : p.Linked registry policy table) (i : Nat) :
    p.Supplies registry policy handle table i := by
  induction i using Nat.strongRecOn with
  | ind i ih =>
      intro n parameter depth s hn hserves hready
      rw [Node.Serves] at hserves
      unfold Registry.supply
      cases hfind : registry.find? parameter.key with
      | none =>
          rw [hfind] at hserves
          obtain ⟨provenance, args, slot⟩ := n
          cases hserves
          cases h.mirror.node i _ hn with
          | defaulted => rfl
      | some d =>
          rw [hfind] at hserves
          obtain ⟨provenance, args, slot⟩ := n
          obtain ⟨chosen, hprovenance⟩ := hserves
          cases hprovenance
          obtain ⟨hbuildable, hfilled⟩ := hready d hfind
          exact h.referTo_eq_of_earlier hn ih hbuildable hfilled

theorem referTo_eq (h : p.Linked registry policy table)
    (hn : p.nodes[i]? = some ⟨.constructed r chosen, args, slot⟩)
    (hbuildable : registry.Buildable policy depth r) (hfilled : registry.Filled policy s.cells r) :
    p.referTo handle table ⟨.constructed r chosen, args, slot⟩ s =
      (some <$> registry.evaluate policy depth r) s :=
  h.referTo_eq_of_earlier hn (fun j _ => h.supplies j) hbuildable hfilled

theorem fillOf_of_filled (h : p.Linked registry policy table) (handle : Handler H) {slot : SlotId}
    {object : Instance H} (hn : p.nodes[i]? = some ⟨.constructed r chosen, args, some slot⟩)
    (hobject : s.cells.get? r.sequence = some object) :
    p.fillOf handle table slot ⟨.constructed r chosen, args, some slot⟩ s =
      .ok (some object) s := by
  change Code.handledFill handle slot r.key _ table s = _
  unfold Code.handledFill
  rw [h.bound i r chosen args slot hn]
  simp [hobject]

theorem fillOf_of_empty (h : p.Linked registry policy table) (handle : Handler H) {slot : SlotId}
    (hn : p.nodes[i]? = some ⟨.constructed r chosen, args, some slot⟩)
    (hempty : s.cells.get? r.sequence = none)
    (hbuild : p.buildOf handle table ⟨.constructed r chosen, args, some slot⟩ s =
      (some <$> registry.assemble policy (registry.evaluate policy depth) r) s) :
    p.fillOf handle table slot ⟨.constructed r chosen, args, some slot⟩ s =
      (do
        let object ← registry.assemble policy (registry.evaluate policy depth) r
        modify (·.fill r.sequence object)
        return some object : Eval H (Option (Instance H))) s := by
  change Code.handledFill handle slot r.key _ table s = _
  unfold Code.handledFill
  rw [h.bound i r chosen args slot hn]
  simp only [Action.get_bind, hempty]
  apply (Action.bind_congr _ hbuild).trans
  rw [bind_map_left]

theorem fillStep_eq (h : p.Linked registry policy table) (handle : Handler H) {slot : SlotId}
    (hn : p.nodes[i]? = some ⟨.constructed r chosen, args, some slot⟩)
    (hbuildable : registry.Buildable policy (depth + 1) r)
    (hbelow : ∀ d, registry.DependsOn policy r d → registry.Filled policy s.cells d) :
    (discard (p.fillOf handle table slot ⟨.constructed r chosen, args, some slot⟩) :
      Eval H Unit) s = registry.fillOwn policy (registry.evaluate policy depth) r s := by
  cases h.mirror.node i _ hn with
  | singleton hmem hlifetime hchosen hargs hslot =>
      have hcell := Registration.cell?_eq_some_iff.mpr ⟨hlifetime, rfl⟩
      have hbuild : p.buildOf handle table ⟨.constructed r chosen, args, some slot⟩ s =
          (some <$> registry.assemble policy (registry.evaluate policy depth) r) s :=
        h.buildOf_eq hargs hchosen (fun j _ => h.supplies j)
          (ready_of_buildable hchosen hbuildable hbelow)
      unfold Registry.fillOwn
      rw [hcell]
      cases hobject : s.cells.get? r.sequence with
      | some object =>
          rw [Action.discard_of_ok (h.fillOf_of_filled handle hn hobject)]
          simp [hobject]
      | none =>
          have hvalue := h.fillOf_of_empty handle hn hobject hbuild
          simp only [Action.get_bind, hobject]
          cases hassemble : registry.assemble policy (registry.evaluate policy depth) r s with
          | ok object t =>
              rw [Action.bind_of_ok _ hassemble] at hvalue ⊢
              exact Action.discard_of_ok hvalue
          | error e t =>
              rw [Action.bind_of_error _ hassemble] at hvalue ⊢
              exact Action.discard_of_error hvalue

end Plan.Linked

end Wiring
