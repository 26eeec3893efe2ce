import Wiring.Proofs.Factory.Initialization

namespace Wiring

variable {H : Host} {registry : Registry H} {policy : ConstructorPolicy}

namespace Registry

/-- Fills everything below a registration, unless the factory of this number has done so before. -/
def prepare (registry : Registry H) (policy : ConstructorPolicy) (number : Nat)
    (r : Registration H) : Eval H Unit := do
  if (← get).initialized.contains number then return
  registry.fillAll policy registry.size r
  modify fun s => { s with initialized := number :: s.initialized }

/-- Direct injection, with the memory that the factory of this number has. -/
def produce (registry : Registry H) (policy : ConstructorPolicy) (number : Nat)
    (r : Registration H) : Eval H (Instance H) := do
  registry.prepare policy number r
  registry.evaluate policy registry.size r

end Registry

/-- What one call of the factory of this number can do to the store, step by step. -/
inductive Progress (registry : Registry H) (policy : ConstructorPolicy) (number : Nat)
    (r : Registration H) : Store H → Store H → Prop
  | act {s t : Store H} (hact : Act registry policy s t) : Progress registry policy number r s t
  | finish {s : Store H} (hfilled : registry.Filled policy s.cells r) :
      Progress registry policy number r s { s with initialized := number :: s.initialized }

/-- The store never forgets that the factory is prepared before everything below it is filled. -/
def Store.Prepared (registry : Registry H) (policy : ConstructorPolicy) (number : Nat)
    (r : Registration H) (s : Store H) : Prop :=
  number ∈ s.initialized → registry.Filled policy s.cells r

variable {number : Nat} {r : Registration H} {s : Store H}

theorem Acts.progress {t : Store H} (h : Acts registry policy s t) :
    Relation.ReflTransGen (Progress registry policy number r) s t := by
  induction h with
  | refl => exact .refl
  | tail _ hstep ih => exact ih.tail (.act hstep)

namespace Registry

theorem prepare_of_mem (h : number ∈ s.initialized) :
    registry.prepare policy number r s = .ok () s := by
  unfold prepare
  simp [h]

theorem prepare_of_not_mem (h : number ∉ s.initialized) :
    registry.prepare policy number r s =
      (do
        registry.fillAll policy registry.size r
        modify fun s => { s with initialized := number :: s.initialized } : Eval H Unit) s := by
  unfold prepare
  simp [h]

theorem prepare_ends (hbuildable : registry.Buildable policy registry.size r)
    (hprepared : s.Prepared registry policy number r) :
    Action.Ends
      (fun _ t => Relation.ReflTransGen (Progress registry policy number r) s t ∧
        registry.Filled policy t.cells r ∧ s.journal.toList <+: t.journal.toList)
      (fun e t => Relation.ReflTransGen (Progress registry policy number r) s t ∧ Blamed s e t)
      (registry.prepare policy number r s) := by
  by_cases hmem : number ∈ s.initialized
  · rw [prepare_of_mem hmem]
    exact ⟨.refl, hprepared hmem, List.prefix_refl _⟩
  · rw [prepare_of_not_mem hmem]
    refine ((fillAll_ends hbuildable).mono (fun _ _ h => h)
      fun e t h => ⟨h.1.progress, h.2⟩).bind ?_
    rintro - t ⟨hacts, hfilled⟩
    exact ⟨hacts.progress.tail (.finish hfilled), hfilled, hacts.journal_extends⟩

/-- One call either yields the root, which for a singleton is the instance in its cell, or fails
with the failure of the last call of client code. -/
theorem produce_ends (hbuildable : registry.Buildable policy registry.size r)
    (hprepared : s.Prepared registry policy number r) :
    Action.Ends
      (fun object t => Relation.ReflTransGen (Progress registry policy number r) s t ∧
        ∀ cell, r.cell? = some cell → t.cells.get? cell = some object)
      (fun e t => Relation.ReflTransGen (Progress registry policy number r) s t ∧ Blamed s e t)
      (registry.produce policy number r s) := by
  unfold produce
  apply (prepare_ends hbuildable hprepared).bind
  rintro - mid ⟨hmid, hfilled, hextends⟩
  refine (evaluate_ends hbuildable hfilled).mono ?_ ?_
  · rintro object t ⟨hquiet, hobject⟩
    exact ⟨hmid.trans hquiet.1.progress, hquiet.2 ▸ hobject⟩
  · rintro e t ⟨hquiet, call, hcall, entries, hentries⟩
    refine ⟨hmid.trans hquiet.1.progress, call, hcall, ?_⟩
    obtain ⟨earlier, hearlier⟩ := hextends
    exact ⟨earlier ++ entries, by simp [hentries, ← hearlier]⟩

end Registry

theorem Plan.has_unmarked (p : Plan H) (id : NodeId) : p.unmarked.has id = false := by
  unfold Marks.has unmarked
  rw [Array.getD_eq_getD_getElem?, Array.getElem?_replicate]
  split <;> rfl

namespace Plan.Mirrors

variable {p : Plan H} {program : Program H} {handle : Handler H}

theorem rootExpression_eq (h : p.Mirrors registry policy r) :
    p.rootExpression = p.rootNode.express p.expressions := by
  have hroot : p.nodes[p.root.index]? = some p.rootNode := p.node?_root
  have hget := getElem?_expressions hroot (h.arena.node _ _ hroot).args_lt
  have hlt : p.root.index < p.expressions.size := p.size_expressions ▸ p.root_lt
  rw [Array.getElem?_eq_getElem hlt, Option.some.injEq] at hget
  exact hget

theorem fillSlots_eq (h : p.Mirrors registry policy r)
    (hlinked : p.Linked registry policy program.table)
    (hinitializer : program.initializer = p.buildOrder.filterMap (p.fillStep? p.expressions))
    {depth : Nat} (hbuildable : registry.Buildable policy depth r) (s : Store H) :
    program.fillSlots handle s = registry.fillAll policy depth r s := by
  obtain ⟨ids, hids, hdo⟩ := (visits hlinked (p.root.index + 1) p.root r depth (p.unmarked, #[])
    (Nat.lt_succ_self _) h.stands hbuildable).steps
  have horder : p.buildOrder = ids := by
    unfold buildOrder
    rw [hids]
    rfl
  unfold Program.fillSlots
  rw [hinitializer, horder]
  apply hdo s
  intro id hmark
  rw [p.has_unmarked] at hmark
  cases hmark

theorem entry_eq (h : p.Mirrors registry policy r)
    (hlinked : p.Linked registry policy program.table)
    (hentry : program.entry = p.rootExpression.refer) {depth : Nat}
    (hbuildable : registry.Buildable policy depth r) (hfilled : registry.Filled policy s.cells r) :
    program.entry.interpret (Code.handling handle) program.table s =
      (some <$> registry.evaluate policy depth r) s := by
  rw [hentry, h.rootExpression_eq]
  obtain ⟨chosen, args, slot, hn⟩ := h.stands
  have hroot : p.rootNode = ⟨.constructed r chosen, args, slot⟩ := by
    have hnode : p.nodes[p.root.index]? = some p.rootNode := p.node?_root
    rw [hnode, Option.some.injEq] at hn
    exact hn
  rw [hroot]
  exact hlinked.referTo_eq hn hbuildable hfilled

theorem produce_eq (h : p.Mirrors registry policy r)
    (hlinked : p.Linked registry policy program.table)
    (hinitializer : program.initializer = p.buildOrder.filterMap (p.fillStep? p.expressions))
    (hentry : program.entry = p.rootExpression.refer)
    (hbuildable : registry.Buildable policy registry.size r)
    (hprepared : s.Prepared registry policy number r) :
    program.produce handle number s = (some <$> registry.produce policy number r) s := by
  have hprepare : program.prepare handle number s = registry.prepare policy number r s := by
    by_cases hmem : number ∈ s.initialized
    · rw [Registry.prepare_of_mem hmem]
      unfold Program.prepare
      simp [hmem]
    · rw [Registry.prepare_of_not_mem hmem]
      unfold Program.prepare
      simp only [Action.get_bind]
      rw [if_neg (by simpa using hmem)]
      exact Action.bind_congr _ (h.fillSlots_eq hlinked hinitializer hbuildable s)
  unfold Program.produce Registry.produce
  rw [map_bind]
  cases hresult : registry.prepare policy number r s with
  | error e t =>
      rw [Action.bind_of_error _ (hprepare.trans hresult), Action.bind_of_error _ hresult]
  | ok _ t =>
      rw [Action.bind_of_ok _ (hprepare.trans hresult), Action.bind_of_ok _ hresult]
      have hends := Registry.prepare_ends hbuildable hprepared
      rw [hresult] at hends
      obtain ⟨-, hfilled, -⟩ := hends
      apply (Action.bind_congr _ (h.entry_eq hlinked hentry hbuildable hfilled)).trans
      rw [bind_map_left]
      exact congrFun (map_eq_pure_bind some (registry.evaluate policy registry.size r)).symm t

end Plan.Mirrors

/-- What is planned has a program, and the program's factories do, under every handler, what direct
injection does. -/
theorem Registry.simulated {options : Options} (hr : registry.Assembled) {key : Key}
    {plan : Plan H} (hplan : (registry.plan options key).result = .ok plan)
    (hfits : plan.nodes.size ≤ UInt32.size) :
    ∃ r program, registry.find? key = some r ∧
      registry.Buildable options.constructorPolicy registry.size r ∧
      plan.program = .ok program ∧
      ∀ (handle : Handler H) (number : Nat) (s : Store H),
        s.Prepared registry options.constructorPolicy number r →
          program.produce handle number s =
            (some <$> registry.produce options.constructorPolicy number r) s := by
  obtain ⟨r, hroot, hmirrors, hplannable⟩ := registry.mirrors_of_plan hr hplan hfits
  have hbuildable := hplannable.buildable (Coherent.mem_of_find? hroot)
  obtain ⟨program, hprogram, hinitializer, hentry, -, hbound⟩ :=
    hmirrors.arena.exists_program hfits
  refine ⟨r, program, hroot, hbuildable, hprogram, ?_⟩
  intro handle number s hprepared
  exact hmirrors.produce_eq (.of_bindings hmirrors.arena hbound) hinitializer hentry hbuildable hprepared

end Wiring
