import Wiring.Proofs.Factory.Calm
import Wiring.Proofs.Plan.BuildOrder

namespace Wiring

variable {H : Host} {registry : Registry H} {policy : ConstructorPolicy} {p : Plan H}
  {r : Registration H} {program : Program H}

theorem getElem?_filterMap_of_isSome {α β : Type} {f : α → Option β} {as : List α}
    (h : ∀ a ∈ as, (f a).isSome) (k : Nat) : (as.filterMap f)[k]? = as[k]?.bind f := by
  induction as generalizing k with
  | nil => simp
  | cons a rest ih =>
      obtain ⟨b, hb⟩ := Option.isSome_iff_exists.mp (h a (by simp))
      rw [List.filterMap_cons_some hb]
      cases k with
      | zero => simp [hb]
      | succ k => simpa using ih (fun other hother => h other (by simp [hother])) k

/-- The initializer has one step for each slot, which fills it. -/
def Program.SlotBySlot (program : Program H) : Prop :=
  program.initializer.length = program.slots.size ∧
    ∀ k instruction, program.initializer[k]? = some instruction →
      ∃ service value, instruction = Instruction.fill (.ofIndex k) service value

namespace Factory

def carryOut (f : Factory H) (count : Nat) : Eval H Unit :=
  (f.initializer.take count).forM fun step => discard (step f.cells)

def pending (f : Factory H) (s : Store H) : List (Code H) :=
  ((f.initializer.zip f.cells.toList).filter fun step => (s.cells.get? step.2).isNone).map Prod.fst

/-- Carries out the steps whose cells are empty to begin with, and no others. -/
def resume (f : Factory H) : Eval H Unit := do
  (f.pending (← get)).forM fun step => discard (step f.cells)
  modify fun s => { s with initialized := f.number :: s.initialized }

/-- From `s` to `t` the first `count` steps of the initializer have filled their cells, as far as
those were empty, and nothing else has been filled. -/
structure Advanced (f : Factory H) (count : Nat) (s t : Store H) : Prop where
  keeps : s.cells.Keeps t.cells
  filled_iff : ∀ cell, (t.cells.get? cell).isSome ↔
    (s.cells.get? cell).isSome ∨ ∃ k < count, f.cells[k]? = some cell
  rest : ∀ k cell, count ≤ k → f.cells[k]? = some cell → t.cells.get? cell = s.cells.get? cell

/-- How a call of the factory fails. -/
inductive Fails (f : Factory H) (s : Store H) (e : Failure) (t : Store H) : Prop
  /-- A step of the initializer fails after all steps before it have been carried out. -/
  | step {k : Nat} {code : Code H} {mid : Store H} (hnew : f.isInitialized s = false)
      (hcode : f.initializer[k]? = some code) (hbefore : f.carryOut k s = .ok () mid)
      (hfails : code f.cells mid = .error e t) (hcells : f.Advanced k s t)
      (hmemory : f.isInitialized t = false)
  /-- The entry fails after the initializer has been completed, now or before. -/
  | entry {mid : Store H} (hprepared : f.prepare s = .ok () mid)
      (hfails : f.entry f.cells mid = .error e t)
      (hcells : f.Advanced f.initializer.length s t) (hmemory : f.isInitialized t = true)

end Factory

/-- The program of a plan for the registration `r`, and what makes it work. -/
structure Program.Implements (registry : Registry H) (policy : ConstructorPolicy) (p : Plan H)
    (r : Registration H) (program : Program H) : Prop where
  assembled : registry.Assembled
  compact : p.Compact registry policy r
  linked : p.Linked registry policy program.table
  order : p.buildOrder = p.slots.toList
  initializer : program.initializer = p.buildOrder.filterMap (p.fillStep? p.expressions)
  entry : program.entry = p.rootExpression.refer
  slots : program.slots.size = p.slots.size
  buildable : ∀ d, registry.Reaches policy r d → registry.Buildable policy registry.size d

theorem Registry.implements_of_plan {options : Options} (hr : registry.Assembled) {root : Key}
    (hplan : (registry.plan options root).result = .ok p)
    (hfits : p.nodes.size ≤ UInt32.size) :
    ∃ r program, registry.find? root = some r ∧ p.program = .ok program ∧
      program.Implements registry options.constructorPolicy p r := by
  obtain ⟨r, hroot, hmirrors, hplannable⟩ := registry.mirrors_of_plan hr hplan hfits
  obtain ⟨d, hd, hcompact⟩ := registry.compact_of_plan hr hplan hfits
  rw [hroot, Option.some.injEq] at hd
  subst hd
  obtain ⟨program, hprogram, hinitializer, hentry, hslots, hbound⟩ :=
    hmirrors.arena.exists_program hfits
  refine ⟨r, program, hroot, hprogram, hr, hcompact, .of_bindings hmirrors.arena hbound,
    registry.buildOrder_of_plan hr hplan hfits, hinitializer, hentry, hslots, ?_⟩
  intro d hd
  exact (hplannable.of_reaches hd).buildable
    (Reaches.mem_toList (Coherent.mem_of_find? hroot) hd)

theorem Plan.Compact.slot_lt (h : p.Compact registry policy r) {k l : Nat} {id other : NodeId}
    (hk : p.slots[k]? = some id) (hl : p.slots[l]? = some other)
    (hlt : other.index < id.index) : l < k := by
  have hascending := List.pairwise_iff_getElem.mp h.ascending
  obtain ⟨hk, rfl⟩ := Array.getElem?_eq_some_iff.mp hk
  obtain ⟨hl, rfl⟩ := Array.getElem?_eq_some_iff.mp hl
  by_contra hle
  rcases Nat.lt_or_eq_of_le (Nat.le_of_not_lt hle) with hkl | rfl
  · have := hascending k l (by simpa) (by simpa) hkl
    simp only [Array.getElem_toList] at this
    omega
  · omega

namespace Program.Implements

variable {number nodeCount k : Nat} {d : Registration H} {code : Code H} {cell : Nat}
  {s t : Store H}

theorem exists_node (h : program.Implements registry policy p r) {id : NodeId}
    (hid : p.slots[k]? = some id) :
    ∃ d chosen args, p.nodes[id.index]? = some ⟨.constructed d chosen, args, some (.ofIndex k)⟩ ∧
      p.fillStep? p.expressions id = some (.fill (.ofIndex k) d.key
        (Node.express ⟨.constructed d chosen, args, some (.ofIndex k)⟩ p.expressions).build) := by
  have hmirror := h.compact.mirrors.arena
  obtain ⟨d, chosen, args, slot, hn⟩ := hmirror.slot k id hid
  obtain ⟨m, hm, hslot⟩ := h.compact.exists_node_of_slot hid
  rw [Plan.node?, hn, Option.some.injEq] at hm
  subst hm
  cases hslot
  refine ⟨d, chosen, args, hn, ?_⟩
  unfold Plan.fillStep? Plan.node?
  rw [hn, Plan.getElem?_expressions hn (hmirror.node _ _ hn).args_lt]
  rfl

theorem isSome_fillStep? (h : program.Implements registry policy p r) :
    ∀ id ∈ p.slots.toList, (p.fillStep? p.expressions id).isSome := by
  intro id hid
  obtain ⟨k, hk⟩ := List.getElem?_of_mem hid
  obtain ⟨_, _, _, -, hstep⟩ := h.exists_node (Array.getElem?_toList ▸ hk)
  rw [hstep]
  rfl

theorem length_initializer (h : program.Implements registry policy p r) :
    program.initializer.length = p.slots.size := by
  rw [h.initializer, h.order, List.filterMap_length_eq_length.mpr h.isSome_fillStep?,
    Array.length_toList]

theorem size_table (h : program.Implements registry policy p r) :
    program.table.size = p.slots.size := by
  rw [Program.table, Array.size_map, h.slots]

/-- Step `k` fills slot `k` with its singleton. -/
theorem exists_step (h : program.Implements registry policy p r) (hk : k < p.slots.size) :
    ∃ (id : NodeId) (d : Registration H) (chosen : Constructor H) (args : List NodeId),
      p.slots[k]? = some id ∧
      p.nodes[id.index]? = some ⟨.constructed d chosen, args, some (.ofIndex k)⟩ ∧
      program.initializer[k]? = some (.fill (.ofIndex k) d.key
        (Node.express ⟨.constructed d chosen, args, some (.ofIndex k)⟩ p.expressions).build) ∧
      program.table[k]? = some d.sequence := by
  have hid := Array.getElem?_eq_getElem hk
  obtain ⟨d, chosen, args, hn, hfill⟩ := h.exists_node hid
  have hk' : k < UInt32.size :=
    Nat.lt_of_lt_of_le hk (Nat.le_trans h.compact.mirrors.arena.size_le h.compact.fits)
  refine ⟨p.slots[k], d, chosen, args, hid, hn, ?_, ?_⟩
  · rw [h.initializer, h.order, getElem?_filterMap_of_isSome h.isSome_fillStep?,
      Array.getElem?_toList, hid, Option.bind_some, hfill]
  · have hbound := h.linked.bound _ d chosen args _ hn
    rwa [SlotId.index_ofIndex hk'] at hbound

theorem slotBySlot (h : program.Implements registry policy p r) : program.SlotBySlot := by
  refine ⟨h.length_initializer.trans h.slots.symm, ?_⟩
  intro k instruction hinstruction
  have hk : k < p.slots.size :=
    h.length_initializer ▸ (List.getElem?_eq_some_iff.mp hinstruction).1
  obtain ⟨_, _, _, _, -, -, hstep, -⟩ := h.exists_step hk
  rw [hinstruction, Option.some.injEq] at hstep
  exact ⟨_, _, hstep⟩

theorem table_inj (h : program.Implements registry policy p r) {l : Nat}
    (hk : program.table[k]? = some cell) (hl : program.table[l]? = some cell) : k = l := by
  have hmirror := h.compact.mirrors.arena
  have hlt : ∀ {m : Nat}, program.table[m]? = some cell → m < p.slots.size := fun hm =>
    h.size_table ▸ (Array.getElem?_eq_some_iff.mp hm).1
  obtain ⟨id, d, chosen, args, hid, hn, -, hcell⟩ := h.exists_step (hlt hk)
  obtain ⟨other, e, inner, others, hother, hm, -, hsame⟩ := h.exists_step (hlt hl)
  rw [hk, Option.some.injEq] at hcell
  rw [hl, Option.some.injEq] at hsame
  have hde : d = e := h.assembled.coherent.sequence_inj d (hmirror.node _ _ hn).served.1 e
    (hmirror.node _ _ hm).served.1 (hcell.symm.trans hsame)
  have hindex := h.compact.unique _ _ _ _ hn hm (by simp) (by simp)
    (congrArg Registration.key hde)
  rw [← NodeId.ofIndex_index other, ← hindex, NodeId.ofIndex_index] at hother
  exact h.compact.slots_inj hid hother

theorem exists_slot (h : program.Implements registry policy p r) {i : Nat} {e : Registration H}
    (hd : p.Stands i d) (he : registry.Reaches policy d e) (hcell : e.cell? = some cell) :
    ∃ (l : Nat) (other : NodeId), other.index ≤ i ∧ p.slots[l]? = some other ∧
      program.table[l]? = some cell := by
  have hmirror := h.compact.mirrors.arena
  obtain ⟨hlifetime, hsequence⟩ := Registration.cell?_eq_some_iff.mp hcell
  obtain ⟨j, huses, chosen, args, slot, hn⟩ := hmirror.stands_of_reaches hd he
  cases hmirror.node j _ hn with
  | transient _ htransient => simp [htransient] at hlifetime
  | @singleton _ _ _ slot =>
      have hj := Nat.lt_of_lt_of_le (Array.getElem?_eq_some_iff.mp hn).1 h.compact.fits
      refine ⟨slot.index, .ofIndex j, ?_, (h.compact.slot_iff hn slot).mp rfl,
        hsequence ▸ h.linked.bound j e chosen args slot hn⟩
      rw [NodeId.index_ofIndex hj]
      exact hmirror.le_of_uses huses

theorem filled_of_all (h : program.Implements registry policy p r) {cells : Cells H}
    (hall : ∀ k cell : Nat, program.table[k]? = some cell → (cells.get? cell).isSome) :
    registry.Filled policy cells r := by
  intro d hd cell hcell
  obtain ⟨l, -, -, -, hbound⟩ := h.exists_slot h.compact.mirrors.stands hd hcell
  exact hall l cell hbound

theorem filled_below (h : program.Implements registry policy p r) {id : NodeId}
    {chosen : Constructor H} {args : List NodeId} {slot : Option SlotId} {cells : Cells H}
    (hid : p.slots[k]? = some id)
    (hn : p.nodes[id.index]? = some ⟨.constructed d chosen, args, slot⟩)
    (hbefore : ∀ l < k, ∀ cell, program.table[l]? = some cell → (cells.get? cell).isSome) :
    ∀ e, registry.DependsOn policy d e → registry.Filled policy cells e := by
  intro e he f hf cell hcell
  have hmirror := h.compact.mirrors.arena
  obtain ⟨j, ⟨n, hargs, arg, harg, rfl⟩, hj⟩ := hmirror.stands_of_dependsOn ⟨_, _, _, hn⟩ he
  obtain ⟨l, other, hle, hl, hbound⟩ := h.exists_slot hj hf hcell
  have hlt := (hmirror.node _ n hargs).args_lt arg harg
  exact hbefore l (h.compact.slot_lt hid hl (Nat.lt_of_le_of_lt hle hlt)) cell hbound

theorem exists_code (h : program.Implements registry policy p r)
    (hcode : (program.factory number nodeCount).initializer[k]? = some code)
    (hcell : program.table[k]? = some cell) :
    ∃ (id : NodeId) (d : Registration H) (chosen : Constructor H) (args : List NodeId),
      p.slots[k]? = some id ∧
      p.nodes[id.index]? = some ⟨.constructed d chosen, args, some (.ofIndex k)⟩ ∧
      d.sequence = cell ∧
      code program.table = p.fillOf Handler.ownFailures program.table (.ofIndex k)
        ⟨.constructed d chosen, args, some (.ofIndex k)⟩ := by
  have hk : k < p.slots.size := h.size_table ▸ (Array.getElem?_eq_some_iff.mp hcell).1
  obtain ⟨id, d, chosen, args, hid, hn, hstep, hsequence⟩ := h.exists_step hk
  rw [hcell, Option.some.injEq] at hsequence
  refine ⟨id, d, chosen, args, hid, hn, hsequence.symm, ?_⟩
  simp only [Program.factory, List.getElem?_map, hstep, Option.map_some, Option.some.injEq,
    ← Code.handling_ownFailures] at hcode
  rw [← hcode]
  rfl

theorem step_of_filled (h : program.Implements registry policy p r)
    (hcode : (program.factory number nodeCount).initializer[k]? = some code)
    (hcell : program.table[k]? = some cell) (hfilled : (s.cells.get? cell).isSome) :
    (discard (code program.table) : Eval H Unit) s = .ok () s := by
  obtain ⟨object, hobject⟩ := Option.isSome_iff_exists.mp hfilled
  obtain ⟨id, d, chosen, args, -, hn, rfl, hown⟩ := h.exists_code hcode hcell
  exact Action.discard_of_ok (hown ▸ h.linked.fillOf_of_filled _ hn hobject)

/-- A step fills its own cell and no other; if it fails, it fills none. -/
theorem step_ends (h : program.Implements registry policy p r)
    (hcode : (program.factory number nodeCount).initializer[k]? = some code)
    (hcell : program.table[k]? = some cell)
    (hbefore : ∀ l < k, ∀ other, program.table[l]? = some other → (s.cells.get? other).isSome) :
    Action.Ends
      (fun _ t => s.Later t ∧ (t.cells.get? cell).isSome ∧
        ∀ other, other ≠ cell → t.cells.get? other = s.cells.get? other)
      (fun _ t => s.Later t ∧ t.cells = s.cells)
      ((discard (code program.table) : Eval H Unit) s) := by
  obtain ⟨id, d, chosen, args, hid, hn, rfl, hown⟩ := h.exists_code hcode hcell
  cases hobject : s.cells.get? d.sequence with
  | some object =>
      rw [h.step_of_filled hcode hcell (by simp [hobject])]
      exact ⟨.refl s, by simp [hobject], fun _ _ => rfl⟩
  | none =>
      have hlifetime := h.compact.mirrors.arena.lifetime_of_slot hn
      have hbelow := h.filled_below hid hn hbefore
      have hbuildable := h.buildable d (h.compact.reaches ⟨_, _, _, hn⟩)
      obtain ⟨depth, hdepth⟩ := hbuildable.exists_succ
      rw [hdepth] at hbuildable
      rw [hown, h.linked.fillStep_eq _ hn hbuildable hbelow]
      refine (Registry.fillOwn_of_empty hbuildable hbelow
        (Registration.cell?_eq_some_iff.mpr ⟨hlifetime, rfl⟩) hobject).mono ?_ ?_
      · rintro - t ⟨hacts, object, ht⟩
        refine ⟨⟨hacts.keeps, hacts.initialized_eq, hacts.nextFactory_eq⟩, ?_, ?_⟩
        · rw [ht, Cells.get?_fill_self object hobject]
          rfl
        · intro other hother
          rw [ht, Cells.get?_fill, if_neg hother, Option.or_none]
      · rintro e t ⟨hquiet, -⟩
        exact ⟨⟨hquiet.1.keeps, hquiet.1.initialized_eq, hquiet.1.nextFactory_eq⟩, hquiet.2⟩

end Program.Implements

namespace Factory

variable {f : Factory H} {k : Nat} {code : Code H} {cell : Nat} {s mid t : Store H}

theorem carryOut_succ (hcode : f.initializer[k]? = some code) :
    f.carryOut (k + 1) = (do
      f.carryOut k
      discard (code f.cells) : Eval H Unit) := by
  unfold carryOut
  rw [List.take_add_one, hcode, Option.toList_some, List.forM_eq_forM, List.forM_append]
  congr 1
  funext _
  rw [List.forM_cons, List.forM_nil]
  exact bind_pure_unit

theorem carryOut_length (f : Factory H) : f.carryOut f.initializer.length =
    f.initializer.forM fun step => discard (step f.cells) := by
  rw [carryOut, List.take_length]

theorem prepare_of_initialized (h : f.isInitialized s = true) : f.prepare s = .ok () s := by
  unfold prepare
  rw [Action.get_bind, if_pos h]
  rfl

theorem prepare_of_new (h : f.isInitialized s = false) :
    f.prepare s = (do
      f.carryOut f.initializer.length
      modify fun s => { s with initialized := f.number :: s.initialized } : Eval H Unit) s := by
  unfold prepare
  rw [Action.get_bind, if_neg (by simp [h]), carryOut_length]

theorem forM_eq_forM_pending (table : Array Nat) (steps : List (Code H × Nat))
    (hcalm : ∀ step ∈ steps, Calm (step.1 table))
    (hskip : ∀ step ∈ steps, ∀ u : Store H, (u.cells.get? step.2).isSome →
      (discard (step.1 table) : Eval H Unit) u = .ok () u)
    (hkeeps : s.cells.Keeps t.cells) :
    (steps.map Prod.fst).forM (fun code => (discard (code table) : Eval H Unit)) t =
      ((steps.filter fun step => (s.cells.get? step.2).isNone).map Prod.fst).forM
        (fun code => (discard (code table) : Eval H Unit)) t := by
  induction steps generalizing t with
  | nil => rfl
  | cons step rest ih =>
      obtain ⟨hhead, hcalm⟩ := List.forall_mem_cons.mp hcalm
      obtain ⟨hown, hskip⟩ := List.forall_mem_cons.mp hskip
      simp only [List.map_cons, List.filter_cons, List.forM_eq_forM, List.forM_cons]
      cases hcell : s.cells.get? step.2 with
      | some object =>
          rw [Action.bind_of_ok _ (hown t (hkeeps.isSome (by simp [hcell])))]
          exact ih hcalm hskip hkeeps
      | none =>
          have hlater := hhead.discard t
          simp only [Option.isNone_none, if_true, List.map_cons, List.forM_cons]
          cases hresult : (discard (step.1 table) : Eval H Unit) t with
          | ok _ u =>
              rw [hresult] at hlater
              rw [Action.bind_of_ok _ hresult, Action.bind_of_ok _ hresult]
              exact ih hcalm hskip (hkeeps.trans hlater.keeps)
          | error e u => rw [Action.bind_of_error _ hresult, Action.bind_of_error _ hresult]

theorem Advanced.zero (f : Factory H) (s : Store H) : f.Advanced 0 s s where
  keeps := .refl _
  filled_iff := by simp
  rest := fun _ _ _ _ => rfl

theorem Advanced.of_filled (count : Nat)
    (h : ∀ k cell : Nat, f.cells[k]? = some cell → (s.cells.get? cell).isSome) :
    f.Advanced count s s where
  keeps := .refl _
  filled_iff := by
    intro cell
    constructor
    · exact Or.inl
    · rintro (hfilled | ⟨k, -, hcell⟩)
      · exact hfilled
      · exact h k cell hcell
  rest := fun _ _ _ _ => rfl

theorem Advanced.congr (h : f.Advanced k s mid) (hcells : t.cells = mid.cells) :
    f.Advanced k s t where
  keeps := hcells ▸ h.keeps
  filled_iff := hcells ▸ h.filled_iff
  rest := hcells ▸ h.rest

theorem Advanced.succ (h : f.Advanced k s mid) (hcell : f.cells[k]? = some cell)
    (hinj : ∀ l, f.cells[l]? = some cell → k = l) (hkeeps : mid.cells.Keeps t.cells)
    (hfilled : (t.cells.get? cell).isSome)
    (hothers : ∀ other, other ≠ cell → t.cells.get? other = mid.cells.get? other) :
    f.Advanced (k + 1) s t where
  keeps := h.keeps.trans hkeeps
  filled_iff := by
    intro other
    by_cases hother : other = cell
    · subst hother
      exact iff_of_true hfilled (Or.inr ⟨k, Nat.lt_succ_self k, hcell⟩)
    · rw [hothers other hother, h.filled_iff]
      apply or_congr_right
      constructor
      · rintro ⟨l, hl, hsame⟩
        exact ⟨l, Nat.lt_succ_of_lt hl, hsame⟩
      · rintro ⟨l, hl, hsame⟩
        refine ⟨l, Nat.lt_of_le_of_ne (Nat.le_of_lt_succ hl) ?_, hsame⟩
        rintro rfl
        rw [hcell, Option.some.injEq] at hsame
        exact hother hsame.symm
  rest := by
    intro l other hle hother
    have hne : other ≠ cell := by
      rintro rfl
      have := hinj l hother
      omega
    rw [hothers other hne, h.rest l other (Nat.le_of_succ_le hle) hother]

end Factory

namespace Program.Implements

variable {number nodeCount : Nat} {s t : Store H}

theorem length_factory_initializer (h : program.Implements registry policy p r)
    (number nodeCount : Nat) :
    (program.factory number nodeCount).initializer.length = p.slots.size := by
  rw [← h.length_initializer]
  exact List.length_map _

/-- The first steps of an initializer fill their cells one after the other, up to the first step
that fails. -/
theorem carryOut_ends (h : program.Implements registry policy p r) (number nodeCount count : Nat)
    (hcount : count ≤ p.slots.size) (s : Store H) :
    Action.Ends
      (fun _ t => (program.factory number nodeCount).Advanced count s t ∧ s.Later t)
      (fun e t => ∃ k code mid, (program.factory number nodeCount).initializer[k]? = some code ∧
        (program.factory number nodeCount).carryOut k s = .ok () mid ∧
        code program.table mid = .error e t ∧
        (program.factory number nodeCount).Advanced k s t ∧ s.Later t)
      ((program.factory number nodeCount).carryOut count s) := by
  induction count with
  | zero => exact ⟨.zero _ s, .refl s⟩
  | succ k ih =>
      have hlength := h.length_factory_initializer number nodeCount
      have hcode := List.getElem?_eq_getElem (hlength ▸ hcount)
      have hcell : program.table[k]? = some _ :=
        Array.getElem?_eq_getElem (h.size_table ▸ hcount)
      rw [Factory.carryOut_succ hcode]
      cases hbefore : (program.factory number nodeCount).carryOut k s with
      | error e t =>
          rw [Action.bind_of_error _ hbefore]
          have hends := ih (Nat.le_of_succ_le hcount)
          rw [hbefore] at hends
          exact hends
      | ok _ mid =>
          rw [Action.bind_of_ok _ hbefore]
          have hends := ih (Nat.le_of_succ_le hcount)
          rw [hbefore] at hends
          obtain ⟨hadvanced, hlater⟩ := hends
          have hready : ∀ l < k, ∀ other, program.table[l]? = some other →
              (mid.cells.get? other).isSome := fun l hl other hother =>
            (hadvanced.filled_iff other).mpr (Or.inr ⟨l, hl, hother⟩)
          have hstep := h.step_ends hcode hcell hready
          cases hresult :
              (discard ((program.factory number nodeCount).initializer[k] program.table) :
                Eval H Unit) mid with
          | ok _ t =>
              rw [hresult] at hstep
              obtain ⟨hmore, hfilled, hothers⟩ := hstep
              rw [Program.factory_cells, hresult]
              exact ⟨hadvanced.succ hcell (fun l => h.table_inj hcell) hmore.keeps hfilled hothers,
                hlater.trans hmore⟩
          | error e t =>
              rw [hresult] at hstep
              obtain ⟨hmore, hcells⟩ := hstep
              rw [Program.factory_cells, hresult]
              exact ⟨k, _, mid, hcode, hbefore, Action.discard_eq_error_iff.mp hresult,
                hadvanced.congr hcells, hlater.trans hmore⟩

theorem all_filled (h : program.Implements registry policy p r)
    (hfilled : registry.Filled policy s.cells r) :
    ∀ k cell : Nat, program.table[k]? = some cell → (s.cells.get? cell).isSome := by
  intro k cell hcell
  have hk : k < p.slots.size := h.size_table ▸ (Array.getElem?_eq_some_iff.mp hcell).1
  obtain ⟨id, d, chosen, args, -, hn, -, hsequence⟩ := h.exists_step hk
  rw [hcell, Option.some.injEq] at hsequence
  have hlifetime := h.compact.mirrors.arena.lifetime_of_slot hn
  exact hfilled d (h.compact.reaches ⟨_, _, _, hn⟩) cell
    (Registration.cell?_eq_some_iff.mpr ⟨hlifetime, hsequence.symm⟩)

theorem entry_ends (h : program.Implements registry policy p r) (number nodeCount : Nat)
    (hfilled : registry.Filled policy s.cells r) :
    Action.Ends (fun value t => value.isSome ∧ Quiet registry policy s t)
      (fun _ t => Quiet registry policy s t)
      ((program.factory number nodeCount).entry program.table s) := by
  have hbuildable := h.buildable r .refl
  have hentry : program.entry.interpret (Code.handling Handler.ownFailures) program.table s =
      (some <$> registry.evaluate policy registry.size r) s :=
    h.compact.mirrors.entry_eq h.linked h.entry hbuildable hfilled
  rw [Code.handling_ownFailures] at hentry
  change Action.Ends _ _ (program.entry.interpret Code.emission program.table s)
  rw [hentry]
  refine Action.Ends.map ((Registry.evaluate_ends hbuildable hfilled).mono
    (fun _ _ h => h.1) (fun _ _ h => h.1)) ?_
  exact fun _ _ hquiet => ⟨rfl, hquiet⟩

theorem entry_fails (h : program.Implements registry policy p r) {mid : Store H} {e : Failure}
    (hprepare : (program.factory number nodeCount).prepare s = .ok () mid)
    (hfilled : registry.Filled policy mid.cells r)
    (herror : (program.factory number nodeCount).produce s = .error e t) :
    (program.factory number nodeCount).entry program.table mid = .error e t ∧
      Quiet registry policy mid t := by
  have hends := h.entry_ends number nodeCount hfilled
  unfold Factory.produce at herror
  rw [Action.bind_of_ok _ hprepare, Program.factory_cells] at herror
  cases hentry : (program.factory number nodeCount).entry program.table mid with
  | ok value u =>
      rw [hentry] at hends
      obtain ⟨object, rfl⟩ := Option.isSome_iff_exists.mp hends.1
      rw [Action.bind_of_ok _ hentry] at herror
      cases herror
  | error e' u =>
      rw [hentry] at hends
      rw [Action.bind_of_error _ hentry] at herror
      cases herror
      exact ⟨rfl, hends⟩

theorem prepare_advances (h : program.Implements registry policy p r)
    (hprepared : s.Prepared registry policy number r)
    (hprepare : (program.factory number nodeCount).prepare s = .ok () t) :
    (program.factory number nodeCount).Advanced
        (program.factory number nodeCount).initializer.length s t ∧
      registry.Filled policy t.cells r ∧
      (program.factory number nodeCount).isInitialized t = true := by
  cases hnew : (program.factory number nodeCount).isInitialized s with
  | true =>
      have hfilled := hprepared (List.contains_iff_mem.mp hnew)
      rw [Factory.prepare_of_initialized hnew] at hprepare
      cases hprepare
      exact ⟨.of_filled _ (h.all_filled hfilled), hfilled, hnew⟩
  | false =>
      rw [Factory.prepare_of_new hnew] at hprepare
      obtain ⟨⟨⟩, mid, hsteps, hmark⟩ := Action.bind_eq_ok_iff.mp hprepare
      cases hmark
      have hlength := h.length_factory_initializer number nodeCount
      have hends := h.carryOut_ends number nodeCount _ (Nat.le_of_eq hlength) s
      rw [hsteps] at hends
      refine ⟨hends.1.congr rfl, h.filled_of_all fun k cell hcell => ?_, by
        simp [Factory.isInitialized, Program.factory]⟩
      exact (hends.1.filled_iff cell).mpr (Or.inr ⟨k, hlength ▸ h.size_table ▸
        (Array.getElem?_eq_some_iff.mp hcell).1, hcell⟩)

theorem produce_fails (h : program.Implements registry policy p r) {e : Failure}
    (hprepared : s.Prepared registry policy number r)
    (herror : (program.factory number nodeCount).produce s = .error e t) :
    (program.factory number nodeCount).Fails s e t := by
  cases hprepare : (program.factory number nodeCount).prepare s with
  | ok _ mid =>
      obtain ⟨hadvanced, hfilled, hdone⟩ := h.prepare_advances hprepared hprepare
      obtain ⟨hfails, hquiet⟩ := h.entry_fails hprepare hfilled herror
      refine .entry hprepare hfails (hadvanced.congr hquiet.2) ?_
      rw [Factory.isInitialized, hquiet.1.initialized_eq]
      exact hdone
  | error e' u =>
      have hnew : (program.factory number nodeCount).isInitialized s = false := by
        rw [← Bool.not_eq_true]
        intro hold
        rw [Factory.prepare_of_initialized hold] at hprepare
        cases hprepare
      unfold Factory.produce at herror
      rw [Action.bind_of_error _ hprepare] at herror
      cases herror
      have hlength := h.length_factory_initializer number nodeCount
      have hends := h.carryOut_ends number nodeCount _ (Nat.le_of_eq hlength) s
      rw [Factory.prepare_of_new hnew] at hprepare
      cases hresult : (program.factory number nodeCount).carryOut
          (program.factory number nodeCount).initializer.length s with
      | ok _ mid =>
          rw [Action.bind_of_ok _ hresult] at hprepare
          cases hprepare
      | error e' u =>
          rw [Action.bind_of_error _ hresult] at hprepare
          cases hprepare
          rw [hresult] at hends
          obtain ⟨k, code, mid, hcode, hbefore, hfails, hadvanced, hlater⟩ := hends
          refine .step hnew hcode hbefore hfails hadvanced ?_
          rw [Factory.isInitialized, hlater.initialized]
          exact hnew

theorem produce_advances (h : program.Implements registry policy p r)
    (hprepared : s.Prepared registry policy number r) :
    ∃ count, (program.factory number nodeCount).Advanced count s
      (Action.finalState ((program.factory number nodeCount).produce s)) := by
  cases hproduce : (program.factory number nodeCount).produce s with
  | error e t =>
      cases h.produce_fails hprepared hproduce with
      | step _ _ _ _ hcells _ => exact ⟨_, hcells⟩
      | entry _ _ hcells _ => exact ⟨_, hcells⟩
  | ok object t =>
      obtain ⟨⟨⟩, mid, hprepare, hrest⟩ := Action.bind_eq_ok_iff.mp hproduce
      obtain ⟨value, last, hentry, hlast⟩ := Action.bind_eq_ok_iff.mp hrest
      obtain ⟨hadvanced, hfilled, -⟩ := h.prepare_advances hprepared hprepare
      have hends := h.entry_ends number nodeCount hfilled
      rw [Program.factory_cells] at hentry
      rw [hentry] at hends
      obtain ⟨found, rfl⟩ := Option.isSome_iff_exists.mp hends.1
      cases hlast
      exact ⟨_, hadvanced.congr hends.2.2⟩

theorem prepare_eq_resume (h : program.Implements registry policy p r)
    (hnew : (program.factory number nodeCount).isInitialized s = false) :
    (program.factory number nodeCount).prepare s =
      (program.factory number nodeCount).resume s := by
  have hlength : (program.factory number nodeCount).initializer.length =
      program.table.toList.length := by
    rw [Array.length_toList, h.size_table, h.length_factory_initializer]
  have hsteps : ((program.factory number nodeCount).initializer.zip program.table.toList).map
      Prod.fst = (program.factory number nodeCount).initializer :=
    List.map_fst_zip (Nat.le_of_eq hlength)
  have hall := Factory.forM_eq_forM_pending program.table
    ((program.factory number nodeCount).initializer.zip program.table.toList)
    (s := s) (t := s) ?_ ?_ (.refl _)
  · rw [hsteps] at hall
    rw [Factory.prepare_of_new hnew, Factory.carryOut_length]
    exact Action.bind_congr _ hall
  · rintro ⟨code, cell⟩ hmem u
    exact program.calm_initializer number nodeCount code (List.of_mem_zip hmem).1 _ u
  · rintro ⟨code, cell⟩ hmem u hfilled
    obtain ⟨k, hk⟩ := List.getElem?_of_mem hmem
    obtain ⟨hcode, hcell⟩ := List.getElem?_zip_eq_some.mp hk
    exact h.step_of_filled hcode (Array.getElem?_toList ▸ hcell) hfilled

end Program.Implements

/-- Once the root of a factory is a singleton whose cell is filled, and everything below it is
filled, the factory yields the instance and makes no call. -/
theorem Registry.produce_of_filled {number cell : Nat} {object : Instance H} {s : Store H}
    (hbuildable : registry.Buildable policy registry.size r) (hcell : r.cell? = some cell)
    (hobject : s.cells.get? cell = some object) (hfilled : registry.Filled policy s.cells r) :
    ∃ t, registry.produce policy number r s = .ok object t ∧ t.cells = s.cells ∧
      t.journal = s.journal := by
  have hprepare : ∃ t, registry.prepare policy number r s = .ok () t ∧ t.cells = s.cells ∧
      t.journal = s.journal := by
    by_cases hmem : number ∈ s.initialized
    · exact ⟨s, prepare_of_mem hmem, rfl, rfl⟩
    · rw [prepare_of_not_mem hmem, Action.bind_of_ok _ (fillAll_of_filled hbuildable hfilled)]
      exact ⟨_, rfl, rfl, rfl⟩
  obtain ⟨t, ht, hcells, hjournal⟩ := hprepare
  obtain ⟨depth, hdepth⟩ := hbuildable.exists_succ
  refine ⟨t, ?_, hcells, hjournal⟩
  unfold produce
  rw [Action.bind_of_ok _ ht, hdepth]
  unfold evaluate
  simp only [hcell, Action.get_bind, hcells, hobject]
  rfl

end Wiring
