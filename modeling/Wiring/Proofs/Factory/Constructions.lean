import Wiring.Proofs.Program.SlotOrder

namespace Wiring

variable {H : Host}

def Call.callee? : Call H → Option (Constructor H)
  | .construct callee _ _ => some callee
  | _ => none

/-- The constructors that have been called, in order. -/
def Journal.constructed (j : Journal H) : List (Constructor H) :=
  j.calls.filterMap Call.callee?

/-- From `s` to `t` exactly these constructors are called, and no cell is filled. -/
structure Store.Constructs (s : Store H) (callees : List (Constructor H)) (t : Store H) : Prop where
  constructed : t.journal.constructed = s.journal.constructed ++ callees
  cells : t.cells = s.cells

namespace Store.Constructs

variable {s t u : Store H} {first second : List (Constructor H)}

theorem refl (s : Store H) : s.Constructs [] s := ⟨(List.append_nil _).symm, rfl⟩

theorem trans (hst : s.Constructs first t) (htu : t.Constructs second u) :
    s.Constructs (first ++ second) u :=
  ⟨by rw [htu.constructed, hst.constructed, List.append_assoc], htu.cells.trans hst.cells⟩

theorem of_calls {call : Call H} (h : s.Calls call t) : s.Constructs call.callee?.toList t := by
  refine ⟨?_, h.cells_eq⟩
  rw [Journal.constructed, h.calls_eq, List.filterMap_append]
  cases hcallee : call.callee? <;> simp [hcallee, Journal.constructed]

end Store.Constructs

/-- A success has called exactly these constructors and filled no cell. -/
abbrev Constructing {α : Type} (callees : List (Constructor H)) (m : Eval H α) : Prop :=
  ∀ s : Store H, Action.Ends (fun _ t => s.Constructs callees t) (fun _ _ => True) (m s)

namespace Constructing

variable {α β : Type} {m : Eval H α} {first second : List (Constructor H)}

theorem pure (a : α) : Constructing [] (pure a : Eval H α) := .refl

theorem bind {f : α → Eval H β} (hm : Constructing first m) (hf : ∀ a, Constructing second (f a)) :
    Constructing (first ++ second) (m >>= f) := fun s =>
  (hm s).bind fun a t hst => (hf a t).mono (fun _ _ htu => hst.trans htu) fun _ _ h => h

theorem map (hm : Constructing first m) (f : α → β) : Constructing first (f <$> m) := fun s =>
  (hm s).map fun _ _ h => h

theorem invoke (c : Constructor H) (args : List (Option (Instance H))) :
    Constructing [c] (c.invoke args) := by
  intro s
  obtain ⟨result, t, hcalls, hinvoke⟩ := c.invoke_calls args s
  rw [hinvoke]
  cases result with
  | ok object => exact .of_calls hcalls
  | error e => trivial

theorem apply (a : Adapter H) (object : Instance H) : Constructing [] (a.apply object) := by
  intro s
  obtain ⟨result, t, hcalls, happly⟩ := a.apply_calls object s
  rw [happly]
  cases result with
  | ok handle => exact .of_calls hcalls
  | error e => trivial

theorem substitute (p : Parameter H) : Constructing [] p.substitute := by
  intro s
  rcases p.substitute_calls s with ⟨-, hnone⟩ | ⟨object, t, -, hcalls, hsome⟩
  · rw [hnone]
    exact .refl s
  · rw [hsome]
    exact .of_calls hcalls

end Constructing

def Instruction.FillsNothing (i : Instruction H) : Prop :=
  ∀ slot service, Operation.fill slot service ∉ i.operations

mutual

theorem Instruction.constructing : ∀ (i : Instruction H) (table : Array Nat), i.FillsNothing →
    Constructing i.callees (i.interpret Code.emission table)
  | .call callee args, table, hfills => by
      rw [callees_call]
      have hargs := constructingAll args table fun arg harg slot service hfill =>
        hfills slot service (by
          rw [operations_call]
          exact List.mem_append_left _ (List.mem_flatMap.mpr ⟨arg, harg, hfill⟩))
      exact hargs.bind fun values => (Constructing.invoke callee values).map some
  | .load slot service, table, _ => by
      intro s
      change Action.Ends _ _ (Code.load slot service table s)
      unfold Code.load
      rw [Action.get_bind]
      cases table[slot.index]?.bind s.cells.get? with
      | some object => exact .refl s
      | none => trivial
  | .fill slot service value, _, hfills => by
      refine absurd ?_ (hfills slot service)
      simp
  | .default parameter, table, _ => Constructing.substitute parameter
  | .adapt adapter value, table, hfills => by
      rw [callees_adapt, ← List.append_nil value.callees]
      have hvalue := constructing value table fun slot service hfill =>
        hfills slot service (by simp [hfill])
      refine hvalue.bind fun result => ?_
      cases result with
      | none => exact .pure none
      | some object => exact (Constructing.apply adapter object).map some

theorem Instruction.constructingAll : ∀ (instructions : List (Instruction H)) (table : Array Nat),
    (∀ i ∈ instructions, i.FillsNothing) →
    Constructing (instructions.flatMap callees)
      ((interpretAll Code.emission instructions).mapM fun code => code table)
  | [], _, _ => .pure []
  | instruction :: rest, table, hfills => by
      obtain ⟨hhead, hrest⟩ := List.forall_mem_cons.mp hfills
      rw [interpretAll, List.mapM_cons, List.flatMap_cons, ← List.append_nil (rest.flatMap callees)]
      refine (constructing instruction table hhead).bind fun value => ?_
      exact (constructingAll rest table hrest).bind fun values => .pure _

end

namespace Program

variable {program : Program H} {table : Array Nat} {cell : Nat} {s t : Store H}

/-- The steps of the initializer whose cells are empty. -/
def pending (program : Program H) (cells : Cells H) : List (Instruction H) :=
  ((program.initializer.zip program.table.toList).filter fun step =>
    (cells.get? step.2).isNone).map Prod.fst

def outstanding (program : Program H) (cells : Cells H) : List (Constructor H) :=
  (program.pending cells).flatMap Instruction.callees ++ program.entry.callees

def Fills (table : Array Nat) (step : Instruction H) (cell : Nat) : Prop :=
  ∃ slot service value, step = .fill slot service value ∧ table[slot.index]? = some cell ∧
    value.FillsNothing

theorem Fills.ends {step : Instruction H} (h : Fills table step cell) (s : Store H) :
    Action.Ends
      (fun _ t => t.journal.constructed = s.journal.constructed ++
          (if (s.cells.get? cell).isNone then step.callees else []) ∧
        ∀ other, other ≠ cell → t.cells.get? other = s.cells.get? other)
      (fun _ _ => True)
      ((discard (step.interpret Code.emission table) : Eval H Unit) s) := by
  obtain ⟨slot, service, value, rfl, hcell, hfills⟩ := h
  change Action.Ends _ _
    ((discard (Code.fill slot service (value.interpret Code.emission) table) : Eval H Unit) s)
  refine Action.Ends.map (Q := fun _ t => t.journal.constructed = s.journal.constructed ++
      (if (s.cells.get? cell).isNone then value.callees else []) ∧
    ∀ other, other ≠ cell → t.cells.get? other = s.cells.get? other) ?_ ?_
  · unfold Code.fill
    simp only [hcell, Action.get_bind]
    cases hobject : s.cells.get? cell with
    | some object => simp [Action.Ends]
    | none =>
        refine (value.constructing table hfills s).bind fun result t ht => ?_
        cases result with
        | none => trivial
        | some object =>
            refine ⟨by simpa using ht.constructed, fun other hother => ?_⟩
            change (t.cells.fill cell object).get? other = s.cells.get? other
            rw [Cells.get?_fill, if_neg hother, Option.or_none, ht.cells]
  · intro result t ht
    rwa [Instruction.callees_fill]

/-- Steps for different cells call, one after the other, the constructors of those whose cells are
empty to begin with. -/
theorem forM_constructed {steps : List (Instruction H × Nat)}
    (hfills : ∀ step ∈ steps, Fills table step.1 step.2)
    (hdistinct : (steps.map Prod.snd).Nodup) (s : Store H) :
    Action.Ends
      (fun _ t => t.journal.constructed = s.journal.constructed ++
        (steps.filter fun step => (s.cells.get? step.2).isNone).flatMap
          fun step => step.1.callees)
      (fun _ _ => True)
      ((steps.map Prod.fst).forM (fun step =>
        (discard (step.interpret Code.emission table) : Eval H Unit)) s) := by
  induction steps generalizing s with
  | nil => exact (List.append_nil _).symm
  | cons step rest ih =>
      obtain ⟨hhead, hrest⟩ := List.forall_mem_cons.mp hfills
      rw [List.map_cons, List.nodup_cons] at hdistinct
      rw [List.map_cons, List.forM_eq_forM, List.forM_cons]
      refine (hhead.ends s).bind fun _ mid hmid => ?_
      refine (ih hrest hdistinct.2 mid).mono (fun _ t ht => ?_) fun _ _ h => h
      -- The cells differ, so that the first step leaves the others as empty as they were.
      have hsame : (rest.filter fun step => (mid.cells.get? step.2).isNone) =
          rest.filter fun step => (s.cells.get? step.2).isNone := by
        apply List.filter_congr
        intro other hother
        rw [hmid.2 other.2]
        rintro heq
        exact hdistinct.1 (heq ▸ List.mem_map_of_mem hother)
      rw [ht, hmid.1, hsame, List.append_assoc, List.filter_cons]
      cases s.cells.get? step.2 <;> rfl

end Program

namespace Program.InSlotOrder

variable {program : Program H}

theorem fills (h : program.InSlotOrder) :
    ∀ step ∈ program.initializer.zip program.table.toList,
      Fills program.table step.1 step.2 := by
  rintro ⟨instruction, cell⟩ hmem
  obtain ⟨k, hk⟩ := List.getElem?_of_mem hmem
  obtain ⟨hinstruction, hcell⟩ := List.getElem?_zip_eq_some.mp hk
  have hk : k < program.initializer.length := (List.getElem?_eq_some_iff.mp hinstruction).1
  have hbinding := Array.getElem?_eq_getElem (h.length ▸ hk)
  obtain ⟨slot, value, rfl, hstep, hloads⟩ := h.step k _ hbinding
  rw [hinstruction, Option.some.injEq] at hstep
  exact ⟨slot, _, value, hstep, Array.getElem?_toList ▸ hcell, fun _ _ hfill => hloads _ hfill⟩

theorem length_table (h : program.InSlotOrder) :
    program.initializer.length = program.table.toList.length := by
  rw [h.length]
  simp [Program.table]

end Program.InSlotOrder

namespace Program.Implements

variable {registry : Registry H} {policy : ConstructorPolicy} {p : Plan H} {r : Registration H}
  {program : Program H} {number nodeCount : Nat} {s t : Store H}

theorem nodup_table (h : program.Implements registry policy p r) : program.table.toList.Nodup := by
  rw [List.nodup_iff_pairwise_ne, List.pairwise_iff_getElem]
  intro k l hk hl hlt hsame
  have hkl := h.table_inj (Array.getElem?_toList ▸ List.getElem?_eq_getElem hk)
    (Array.getElem?_toList ▸ hsame ▸ List.getElem?_eq_getElem hl)
  omega

theorem prepare_constructs (h : program.Implements registry policy p r)
    (horder : program.InSlotOrder) (hprepared : s.Prepared registry policy number r)
    (hprepare : (program.factory number nodeCount).prepare s = .ok () t) :
    t.journal.constructed =
      s.journal.constructed ++ (program.pending s.cells).flatMap Instruction.callees := by
  cases hnew : (program.factory number nodeCount).isInitialized s with
  | true =>
      rw [Factory.prepare_of_initialized hnew] at hprepare
      cases hprepare
      have hfilled := h.all_filled (hprepared (List.contains_iff_mem.mp hnew))
      have hnone : program.pending s.cells = [] := by
        rw [pending, List.map_eq_nil_iff, List.filter_eq_nil_iff]
        rintro ⟨step, cell⟩ hmem
        obtain ⟨k, hk⟩ := List.getElem?_of_mem (List.of_mem_zip hmem).2
        rw [Array.getElem?_toList] at hk
        simp [Option.isSome_iff_ne_none.mp (hfilled k cell hk)]
      simp [hnone]
  | false =>
      rw [Factory.prepare_of_new hnew, Factory.carryOut_length] at hprepare
      obtain ⟨⟨⟩, mid, hsteps, hmark⟩ := Action.bind_eq_ok_iff.mp hprepare
      cases hmark
      have hdistinct : ((program.initializer.zip program.table.toList).map Prod.snd).Nodup := by
        rw [List.map_snd_zip (Nat.le_of_eq horder.length_table.symm)]
        exact h.nodup_table
      have hends := forM_constructed horder.fills hdistinct s
      rw [List.map_fst_zip (Nat.le_of_eq horder.length_table)] at hends
      change ((program.initializer.map (Instruction.interpret Code.emission)).forM fun step =>
        (discard (step program.table) : Eval H Unit)) s = .ok () mid at hsteps
      rw [List.forM_eq_forM, List.forM_map] at hsteps
      rw [List.forM_eq_forM, hsteps] at hends
      rw [pending, List.flatMap_map]
      exact hends

/-- A call that succeeds calls the constructors that remain to be called, and no others. -/
theorem produce_constructs (h : program.Implements registry policy p r)
    (hprogram : p.program = .ok program) (hprepared : s.Prepared registry policy number r)
    {object : Instance H}
    (hproduce : (program.factory number nodeCount).produce s = .ok object t) :
    t.journal.constructed = s.journal.constructed ++ program.outstanding s.cells := by
  have horder := h.inSlotOrder hprogram
  obtain ⟨⟨⟩, mid, hprepare, hentry⟩ := Action.bind_eq_ok_iff.mp hproduce
  obtain ⟨value, last, hvalue, hlast⟩ := Action.bind_eq_ok_iff.mp hentry
  have hconstructs := program.entry.constructing program.table
    (fun _ _ hfill => horder.entry _ hfill) mid
  change program.entry.interpret Code.emission program.table mid = .ok value last at hvalue
  rw [hvalue] at hconstructs
  cases value with
  | none => cases hlast
  | some found =>
      cases hlast
      rw [hconstructs.constructed, h.prepare_constructs horder hprepared hprepare, outstanding,
        List.append_assoc]

end Program.Implements

end Wiring
