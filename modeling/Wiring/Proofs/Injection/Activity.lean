import Wiring.Proofs.Action
import Wiring.Proofs.Injection

namespace Wiring

variable {H : Host}

namespace Entry

def call? : Entry H → Option (Call H)
  | .call made => some made
  | _ => none

end Entry

namespace Journal

/-- The calls of client code, in order. -/
def calls (j : Journal H) : List (Call H) :=
  j.toList.filterMap Entry.call?

theorem calls_push (j : Journal H) (entry : Entry H) :
    calls (j.push entry) = j.calls ++ entry.call?.toList := by
  unfold calls
  rw [Array.toList_push, List.filterMap_append]
  cases h : entry.call? <;> simp [h]

theorem calls_of_silent {j k : Journal H} (h : ∃ entries : List (Entry H),
    (∀ entry ∈ entries, entry.call? = none) ∧ k.toList = j.toList ++ entries) :
    k.calls = j.calls := by
  obtain ⟨entries, hsilent, hentries⟩ := h
  unfold calls
  rw [hentries, List.filterMap_append, List.filterMap_eq_nil_iff.mpr hsilent, List.append_nil]

end Journal

namespace Call

def failure? : Call H → Option Failure
  | .construct _ _ (.error e) => some e
  | .adapt _ _ (.error e) => some e
  | _ => none

/-- The call ends a successful build of the registration, and this is the instance: it was built, or
presented if what is built needs presenting. -/
def Completes (r : Registration H) (object : Instance H) : Call H → Prop
  | .construct _ _ (.ok built) => r.adapter = none ∧ built = object
  | .adapt _ _ (.ok handle) => handle = object
  | _ => False

end Call

/-- What was delivered for a parameter is, if a singleton serves it, the instance in its cell. -/
def Delivered (registry : Registry H) (cells : Cells H) (parameter : Parameter H)
    (value : Option (Instance H)) : Prop :=
  ∀ d, registry.find? parameter.key = some d → ∀ cell, d.cell? = some cell →
    ∃ object, cells.get? cell = some object ∧ value = some object

inductive Call.Builds (registry : Registry H) (policy : ConstructorPolicy) (cells : Cells H)
    (r : Registration H) : Call H → Prop
  | construct {chosen : Constructor H} {args : List (Option (Instance H))}
      {result : Except Failure (Instance H)} (hchosen : policy.choose? r.constructors = some chosen)
      (hargs : List.Forall₂ (Delivered registry cells) chosen.parameters args) :
      Builds registry policy cells r (.construct chosen args result)
  | adapt {adapter : Adapter H} {object : Instance H} {result : Except Failure (Instance H)}
      (hadapter : r.adapter = some adapter) :
      Builds registry policy cells r (.adapt adapter object result)

namespace Store

/-- From `s` to `t` client code may have run, and entries other than calls have been made. -/
structure Chatter (s t : Store H) : Prop where
  cells : t.cells = s.cells
  initialized : t.initialized = s.initialized
  nextFactory : t.nextFactory = s.nextFactory
  nextSerial : s.nextSerial ≤ t.nextSerial
  journal : ∃ entries, (∀ entry ∈ entries, entry.call? = none) ∧
    t.journal.toList = s.journal.toList ++ entries

theorem Chatter.refl (s : Store H) : s.Chatter s :=
  ⟨rfl, rfl, rfl, Nat.le_refl _, [], List.forall_mem_nil _, by simp⟩

theorem Chatter.trans {s t u : Store H} (hst : s.Chatter t) (htu : t.Chatter u) :
    s.Chatter u where
  cells := htu.cells.trans hst.cells
  initialized := htu.initialized.trans hst.initialized
  nextFactory := htu.nextFactory.trans hst.nextFactory
  nextSerial := Nat.le_trans hst.nextSerial htu.nextSerial
  journal := by
    obtain ⟨first, hfirst, hs⟩ := hst.journal
    obtain ⟨second, hsecond, ht⟩ := htu.journal
    exact ⟨first ++ second, List.forall_mem_append.mpr ⟨hfirst, hsecond⟩, by simp [ht, hs]⟩

theorem chatter_enter (s : Store H) {entry : Entry H} (hentry : entry.call? = none) :
    s.Chatter (s.enter entry) :=
  ⟨rfl, rfl, rfl, Nat.le_refl _, [entry], by simpa using hentry, by simp [enter]⟩

theorem chatter_absorb {α : Type} (s : Store H) (reply : Reply H α) :
    s.Chatter (s.absorb reply) :=
  ⟨rfl, rfl, rfl, Nat.le_refl _, reply.events.map fun event => .remark (.event event),
    by simp [Entry.call?], by simp [absorb]⟩

theorem chatter_world (s : Store H) (world : H.World) : s.Chatter { s with world } :=
  ⟨rfl, rfl, rfl, Nat.le_refl _, [], List.forall_mem_nil _, by simp⟩

theorem chatter_create (s : Store H) (type : TypeTag) (payload : H.Payload) :
    s.Chatter (s.create type payload).2 :=
  ⟨rfl, rfl, rfl, Nat.le_succ _, [], List.forall_mem_nil _, by simp [create]⟩

@[simp] theorem journal_enter (s : Store H) (entry : Entry H) :
    (s.enter entry).journal.toList = s.journal.toList ++ [entry] := by
  simp [enter]

@[simp] theorem journal_fill (s : Store H) (cell : Nat) (object : Instance H) :
    (s.fill cell object).journal = s.journal := rfl

end Store

def Store.Created (s t : Store H) (object : Instance H) : Prop :=
  ∃ serial, object.origin = .built serial ∧ s.nextSerial ≤ serial ∧ serial < t.nextSerial

def Constructor.Yields (c : Constructor H) (s t : Store H) (object : Instance H) : Prop :=
  match c.recipe with
  | .handOut given => object = given
  | .assemble _ => s.Created t object

theorem Store.created_create (s : Store H) (type : TypeTag) (payload : H.Payload) :
    s.Created (s.create type payload).2 (s.create type payload).1 :=
  ⟨s.nextSerial, rfl, Nat.le_refl _, Nat.lt_succ_self _⟩

/-- The call is what the code that it calls does in some world. -/
inductive Call.Genuine : Call H → Prop
  | handOut {callee : Constructor H} {args : List (Option (Instance H))} {object : Instance H}
      (hrecipe : callee.recipe = .handOut object) : Genuine (.construct callee args (.ok object))
  | assemble {callee : Constructor H} {args : List (Option (Instance H))}
      {code : Arguments H → Client H (Except Failure H.Payload)} {world : H.World}
      {payload : H.Payload} {origin : Origin} (hrecipe : callee.recipe = .assemble code)
      (hreply : (code (.ofValues callee.label args) world).result = .ok payload) :
      Genuine (.construct callee args (.ok ⟨callee.implementation, payload, origin⟩))
  | fail {callee : Constructor H} {args : List (Option (Instance H))}
      {code : Arguments H → Client H (Except Failure H.Payload)} {world : H.World} {e : Failure}
      (hrecipe : callee.recipe = .assemble code)
      (hreply : (code (.ofValues callee.label args) world).result = .error e) :
      Genuine (.construct callee args (.error e))
  | refuse {adapter : Adapter H} {object : Instance H} {e : Failure}
      (hexpect : object.expect adapter.source = .error e) :
      Genuine (.adapt adapter object (.error e))
  | convert {adapter : Adapter H} {object : Instance H} {world : H.World} {payload : H.Payload}
      (htype : object.type.id = adapter.source.id)
      (hreply : (adapter.convert object.payload world).result = .ok payload) :
      Genuine (.adapt adapter object (.ok ⟨adapter.target.handle, payload, object.origin⟩))
  | decline {adapter : Adapter H} {object : Instance H} {world : H.World} {e : Failure}
      (htype : object.type.id = adapter.source.id)
      (hreply : (adapter.convert object.payload world).result = .error e) :
      Genuine (.adapt adapter object (.error e))
  | default {type : TypeTag} {standard : Client H H.Payload} {world : H.World} {origin : Origin} :
      Genuine (.default (.value type standard) ⟨type, (standard world).result, origin⟩)

def Call.made? : Call H → Option (Instance H)
  | .construct callee _ (.ok object) =>
    match callee.recipe with
    | .handOut _ => none
    | .assemble _ => some object
  | .default _ object => some object
  | _ => none

theorem Call.made?_of_assemble {callee : Constructor H} {args : List (Option (Instance H))}
    {code : Arguments H → Client H (Except Failure H.Payload)} {object : Instance H}
    (hrecipe : callee.recipe = .assemble code) :
    (Call.construct callee args (.ok object)).made? = some object := by
  simp [made?, hrecipe]

/-- From `s` to `t` code is called. What it makes is numbered, and the call is entered last. -/
structure Store.Calls (s : Store H) (call : Call H) (t : Store H) : Prop where
  genuine : call.Genuine
  entered : ∃ mid, s.Chatter mid ∧ (∀ object, call.made? = some object → s.Created mid object) ∧
    t = mid.enter (.call call)

theorem Store.Calls.calls_eq {s t : Store H} {call : Call H} (h : s.Calls call t) :
    t.journal.calls = s.journal.calls ++ [call] := by
  obtain ⟨-, mid, hmid, -, rfl⟩ := h
  rw [Store.enter, Journal.calls_push, Journal.calls_of_silent hmid.journal]
  rfl

theorem Store.Calls.cells_eq {s t : Store H} {call : Call H} (h : s.Calls call t) :
    t.cells = s.cells := by
  obtain ⟨-, mid, hmid, -, rfl⟩ := h
  exact hmid.cells

theorem Constructor.invoke_calls (c : Constructor H) (args : List (Option (Instance H)))
    (s : Store H) :
    ∃ result t, s.Calls (.construct c args result) t ∧ c.invoke args s = Action.answer result t := by
  unfold invoke
  cases hrecipe : c.recipe with
  | handOut given =>
      refine ⟨.ok given, _, ⟨.handOut hrecipe, s, .refl s, ?_, rfl⟩, rfl⟩
      simp [Call.made?, hrecipe]
  | assemble code =>
      let reply := code (.ofValues c.label args) s.world
      dsimp only
      cases hreply : (code (.ofValues c.label args) s.world).result with
      | ok payload =>
          refine ⟨_, _, ⟨.assemble hrecipe hreply, _,
            (s.chatter_absorb reply).trans (Store.chatter_create _ c.implementation payload),
            ?_, rfl⟩, rfl⟩
          intro object hobject
          rw [Call.made?_of_assemble hrecipe, Option.some.injEq] at hobject
          exact hobject ▸ Store.created_create (s.absorb reply) c.implementation payload
      | error e =>
          exact ⟨_, _, ⟨.fail hrecipe hreply, s.absorb reply, s.chatter_absorb reply,
            by simp [Call.made?], rfl⟩, rfl⟩

theorem Adapter.apply_calls (a : Adapter H) (object : Instance H) (s : Store H) :
    ∃ result t, s.Calls (.adapt a object result) t ∧
      a.apply object s = Action.answer result t := by
  unfold apply
  cases hexpect : object.expect a.source with
  | error e =>
      exact ⟨.error e, _, ⟨.refuse hexpect, s, .refl s, by simp [Call.made?], rfl⟩, rfl⟩
  | ok found =>
      obtain ⟨htype, rfl⟩ := Instance.expect_eq_ok_iff.mp hexpect
      let reply := a.convert found.payload s.world
      dsimp only
      cases hreply : (a.convert found.payload s.world).result with
      | ok payload =>
          exact ⟨_, _, ⟨.convert htype hreply, s.absorb reply, s.chatter_absorb reply,
            by simp [Call.made?], rfl⟩, rfl⟩
      | error e =>
          exact ⟨_, _, ⟨.decline htype hreply, s.absorb reply, s.chatter_absorb reply,
            by simp [Call.made?], rfl⟩, rfl⟩

theorem Parameter.substitute_calls (p : Parameter H) (s : Store H) :
    (p.kind = .reference ∧ p.substitute s = .ok none s) ∨
      ∃ object t, p.kind = .value ∧ s.Calls (.default p object) t ∧
        p.substitute s = .ok (some object) t := by
  cases p with
  | service type name => exact Or.inl ⟨rfl, rfl⟩
  | interface type name => exact Or.inl ⟨rfl, rfl⟩
  | value type standard =>
      let reply := standard s.world
      refine Or.inr ⟨_, _, rfl, ⟨.default, _,
        (s.chatter_absorb reply).trans (Store.chatter_create _ type reply.result), ?_, rfl⟩, rfl⟩
      rintro object ⟨⟩
      exact Store.created_create (s.absorb reply) type reply.result

theorem Constructor.invoke_eq (c : Constructor H) (args : List (Option (Instance H)))
    (s : Store H) :
    ∃ mid result, s.Chatter mid ∧ (∀ object, result = .ok object → c.Yields s mid object) ∧
      c.invoke args s = Action.answer result (mid.enter (.call (.construct c args result))) := by
  obtain ⟨result, _, ⟨hgenuine, mid, hmid, hmade, rfl⟩, hinvoke⟩ := c.invoke_calls args s
  refine ⟨mid, result, hmid, ?_, hinvoke⟩
  rintro object rfl
  unfold Yields
  cases hgenuine with
  | handOut hrecipe => rw [hrecipe]
  | assemble hrecipe =>
      rw [hrecipe]
      exact hmade _ (Call.made?_of_assemble hrecipe)

theorem Adapter.apply_eq (a : Adapter H) (object : Instance H) (s : Store H) :
    ∃ mid result, s.Chatter mid ∧ (∀ handle, result = .ok handle → handle.origin = object.origin) ∧
      a.apply object s = Action.answer result (mid.enter (.call (.adapt a object result))) := by
  obtain ⟨result, _, ⟨hgenuine, mid, hmid, -, rfl⟩, happly⟩ := a.apply_calls object s
  refine ⟨mid, result, hmid, ?_, happly⟩
  rintro handle rfl
  cases hgenuine with
  | convert => rfl

theorem Parameter.substitute_eq (p : Parameter H) (s : Store H) :
    p.substitute s = .ok none s ∨
      ∃ mid object, s.Chatter mid ∧ s.Created mid object ∧
        p.substitute s = .ok (some object) (mid.enter (.call (.default p object))) := by
  rcases p.substitute_calls s with ⟨-, hnone⟩ | ⟨object, _, -, ⟨-, mid, hmid, hmade, rfl⟩, hsome⟩
  · exact Or.inl hnone
  · exact Or.inr ⟨mid, object, hmid, hmade object rfl, hsome⟩

/-- One thing that happens while services are built. A singleton is only worked on while its cell is
empty, and the call that completes it fills the cell after everything that it depends on. -/
inductive Act (registry : Registry H) (policy : ConstructorPolicy) : Store H → Store H → Prop
  | chatter {s t : Store H} (hchatter : s.Chatter t) : Act registry policy s t
  | default {s : Store H} {parameter : Parameter H} {object : Instance H}
      (hfind : registry.find? parameter.key = none) :
      Act registry policy s (s.enter (.call (.default parameter object)))
  | work {s : Store H} {r : Registration H} {call : Call H} (hmem : r ∈ registry.toList)
      (hcall : call.Builds registry policy s.cells r)
      (hopen : ∀ cell, r.cell? = some cell →
        s.cells.get? cell = none ∧ ∀ object, ¬ call.Completes r object) :
      Act registry policy s (s.enter (.call call))
  | complete {s : Store H} {r : Registration H} {call : Call H} {cell : Nat}
      {object : Instance H} (hmem : r ∈ registry.toList)
      (hcall : call.Builds registry policy s.cells r) (hcell : r.cell? = some cell)
      (hempty : s.cells.get? cell = none)
      (hbelow : ∀ d, registry.DependsOn policy r d → registry.Filled policy s.cells d)
      (hcompletes : call.Completes r object) :
      Act registry policy s ((s.enter (.call call)).fill cell object)

abbrev Acts (registry : Registry H) (policy : ConstructorPolicy) : Store H → Store H → Prop :=
  Relation.ReflTransGen (Act registry policy)

/-- The last thing that happened after `s` is a call that failed in this way. -/
def Blamed (s : Store H) (e : Failure) (t : Store H) : Prop :=
  ∃ call : Call H, call.failure? = some e ∧
    ∃ entries, t.journal.toList = s.journal.toList ++ entries ++ [.call call]

variable {registry : Registry H} {policy : ConstructorPolicy} {s t u : Store H}

namespace Act

theorem keeps (h : Act registry policy s t) : s.cells.Keeps t.cells := by
  cases h with
  | chatter hchatter => exact hchatter.cells ▸ .refl _
  | default => exact .refl _
  | work => exact .refl _
  | complete => exact Cells.keeps_fill _ _ _

theorem initialized_eq (h : Act registry policy s t) : t.initialized = s.initialized := by
  cases h with
  | chatter hchatter => exact hchatter.initialized
  | default => rfl
  | work => rfl
  | complete => rfl

theorem nextFactory_eq (h : Act registry policy s t) : t.nextFactory = s.nextFactory := by
  cases h with
  | chatter hchatter => exact hchatter.nextFactory
  | default => rfl
  | work => rfl
  | complete => rfl

theorem journal_extends (h : Act registry policy s t) :
    s.journal.toList <+: t.journal.toList := by
  cases h with
  | chatter hchatter =>
      obtain ⟨entries, -, hentries⟩ := hchatter.journal
      exact ⟨entries, hentries.symm⟩
  | default => simp
  | work => simp
  | complete => simp

end Act

namespace Acts

theorem chatter (h : s.Chatter t) : Acts registry policy s t := .single (.chatter h)

theorem keeps (h : Acts registry policy s t) : s.cells.Keeps t.cells := by
  induction h with
  | refl => exact .refl _
  | tail _ hstep ih => exact ih.trans hstep.keeps

theorem initialized_eq (h : Acts registry policy s t) : t.initialized = s.initialized := by
  induction h with
  | refl => rfl
  | tail _ hstep ih => exact hstep.initialized_eq.trans ih

theorem nextFactory_eq (h : Acts registry policy s t) : t.nextFactory = s.nextFactory := by
  induction h with
  | refl => rfl
  | tail _ hstep ih => exact hstep.nextFactory_eq.trans ih

theorem journal_extends (h : Acts registry policy s t) :
    s.journal.toList <+: t.journal.toList := by
  induction h with
  | refl => exact List.prefix_refl _
  | tail _ hstep ih => exact ih.trans hstep.journal_extends

end Acts

theorem Blamed.of_enter {call : Call H} {e : Failure} (hcall : call.failure? = some e)
    (h : s.journal.toList <+: t.journal.toList) : Blamed s e (t.enter (.call call)) := by
  obtain ⟨entries, hentries⟩ := h
  exact ⟨call, hcall, entries, by rw [Store.journal_enter, hentries]⟩

theorem Blamed.after {e : Failure} (h : Blamed t e u) (hst : Acts registry policy s t) :
    Blamed s e u := by
  obtain ⟨call, hcall, entries, hentries⟩ := h
  obtain ⟨earlier, hearlier⟩ := hst.journal_extends
  exact ⟨call, hcall, earlier ++ entries, by simp [hentries, ← hearlier]⟩

/-- From `s` to `t` things have happened, but no cell has been filled. -/
def Quiet (registry : Registry H) (policy : ConstructorPolicy) (s t : Store H) : Prop :=
  Acts registry policy s t ∧ t.cells = s.cells

theorem Quiet.refl (s : Store H) : Quiet registry policy s s := ⟨.refl, rfl⟩

theorem Quiet.trans (hst : Quiet registry policy s t) (htu : Quiet registry policy t u) :
    Quiet registry policy s u :=
  ⟨hst.1.trans htu.1, htu.2.trans hst.2⟩

theorem Quiet.chatter (h : s.Chatter t) : Quiet registry policy s t :=
  ⟨.chatter h, h.cells⟩

/-- How evaluating a registration ends. No cell is filled on the way, a singleton is what its cell
holds, and only a call can fail. -/
abbrev Evaluates (registry : Registry H) (policy : ConstructorPolicy) (r : Registration H)
    (s : Store H) : EStateM.Result Failure (Store H) (Instance H) → Prop :=
  Action.Ends
    (fun object t => Quiet registry policy s t ∧
      ∀ cell, r.cell? = some cell → s.cells.get? cell = some object)
    (fun e t => Quiet registry policy s t ∧ Blamed s e t)

namespace Registry

variable {r : Registration H} {depth : Nat}

theorem supply_ends {evaluate : Registration H → Eval H (Instance H)} {parameter : Parameter H}
    (hevaluate : ∀ d, registry.find? parameter.key = some d →
      Evaluates registry policy d s (evaluate d s)) :
    Action.Ends (fun value t => Quiet registry policy s t ∧
        Delivered registry s.cells parameter value)
      (fun e t => Quiet registry policy s t ∧ Blamed s e t)
      (registry.supply evaluate parameter s) := by
  unfold supply
  cases hfind : registry.find? parameter.key with
  | some d =>
      apply (hevaluate d hfind).map
      rintro object t ⟨hquiet, hobject⟩
      refine ⟨hquiet, ?_⟩
      intro e he cell hcell
      rw [hfind, Option.some.injEq] at he
      exact ⟨object, hobject cell (he ▸ hcell), rfl⟩
  | none =>
      have hdelivered : ∀ value, Delivered registry s.cells parameter value := by
        intro value d hd
        rw [hfind] at hd
        cases hd
      rcases parameter.substitute_eq s with hnone | ⟨mid, object, hmid, -, hsome⟩
      · simp only [hnone]
        exact ⟨.refl s, hdelivered none⟩
      · simp only [hsome]
        refine ⟨(Quiet.chatter hmid).trans ⟨.single (.default hfind), rfl⟩, hdelivered _⟩

theorem apply_ends {adapter : Adapter H} (hmem : r ∈ registry.toList)
    (hadapter : r.adapter = some adapter) (hquiet : Quiet registry policy s t)
    (hempty : ∀ cell, r.cell? = some cell → s.cells.get? cell = none) (object : Instance H) :
    Action.Ends
      (fun handle u => ∃ mid call, Quiet registry policy s mid ∧
        call.Builds registry policy mid.cells r ∧ call.Completes r handle ∧
        u = mid.enter (.call call))
      (fun e u => Quiet registry policy s u ∧ Blamed s e u)
      (adapter.apply object t) := by
  obtain ⟨mid, result, hmid, -, happly⟩ := adapter.apply_eq object t
  have hcalled : Quiet registry policy s mid := hquiet.trans (.chatter hmid)
  rw [happly]
  cases result with
  | ok handle =>
      exact ⟨mid, .adapt adapter object (.ok handle), hcalled, .adapt hadapter, rfl, rfl⟩
  | error e =>
      refine ⟨hcalled.trans ⟨.single (.work hmem (.adapt hadapter) ?_), rfl⟩,
        .of_enter rfl hcalled.1.journal_extends⟩
      intro cell hcell
      exact ⟨hcalled.2 ▸ hempty cell hcell, fun _ => id⟩

theorem assemble_ends {evaluate : Registration H → Eval H (Instance H)} {chosen : Constructor H}
    (hmem : r ∈ registry.toList) (hchosen : policy.choose? r.constructors = some chosen)
    (hevaluate : ∀ parameter ∈ chosen.parameters, ∀ d,
      registry.find? parameter.key = some d → ∀ t : Store H, t.cells = s.cells →
        Evaluates registry policy d t (evaluate d t))
    (hempty : ∀ cell, r.cell? = some cell → s.cells.get? cell = none) :
    Action.Ends
      (fun object t => ∃ mid call, Quiet registry policy s mid ∧
        call.Builds registry policy mid.cells r ∧ call.Completes r object ∧
        t = mid.enter (.call call))
      (fun e t => Quiet registry policy s t ∧ Blamed s e t)
      (registry.assemble policy evaluate r s) := by
  unfold assemble
  rw [hchosen]
  refine Action.Ends.bind
    (Action.Ends.mapM (I := fun t => Quiet registry policy s t)
      (R := Delivered registry s.cells) ?_ (.refl s)) ?_
  · intro parameter hparameter t ht
    refine (supply_ends fun d hd => hevaluate parameter hparameter d hd t ht.2).mono ?_ ?_
    · rintro value u ⟨hu, hvalue⟩
      exact ⟨ht.trans hu, ht.2 ▸ hvalue⟩
    · rintro e u ⟨hu, hblamed⟩
      exact ⟨ht.trans hu, hblamed.after ht.1⟩
  · rintro args mid ⟨hmid, hargs⟩
    obtain ⟨called, result, hcalled, -, hinvoke⟩ := chosen.invoke_eq args mid
    have hquiet : Quiet registry policy s called := hmid.trans (.chatter hcalled)
    have hbuilds : Call.Builds registry policy called.cells r
        (.construct chosen args result) := .construct hchosen (hquiet.2 ▸ hargs)
    have hwork (hopen : ∀ object, ¬ (Call.construct chosen args result).Completes r object) :
        Quiet registry policy s (called.enter (.call (.construct chosen args result))) := by
      refine hquiet.trans ⟨.single (.work hmem hbuilds ?_), rfl⟩
      intro cell hcell
      exact ⟨hquiet.2 ▸ hempty cell hcell, hopen⟩
    cases result with
    | error e =>
        rw [Action.bind_of_error _ hinvoke]
        exact ⟨hwork fun _ => id, .of_enter rfl hquiet.1.journal_extends⟩
    | ok object =>
        rw [Action.bind_of_ok _ hinvoke]
        cases hadapter : r.adapter with
        | none => exact ⟨called, _, hquiet, hbuilds, ⟨hadapter, rfl⟩, rfl⟩
        | some adapter =>
            have hconstructed := hwork (by simp [Call.Completes, hadapter])
            exact apply_ends hmem hadapter hconstructed hempty object

theorem Buildable.exists_chosen (h : registry.Buildable policy (depth + 1) r) :
    ∃ chosen, policy.choose? r.constructors = some chosen ∧
      (∀ parameter ∈ chosen.parameters, ∀ d, registry.find? parameter.key = some d →
        registry.Buildable policy depth d) ∧
      ∀ parameter ∈ chosen.parameters, ∀ d, registry.find? parameter.key = some d →
        registry.DependsOn policy r d := by
  obtain ⟨-, chosen, hchosen, hbelow⟩ := h
  exact ⟨chosen, hchosen, hbelow, fun parameter hparameter d hfind =>
    ⟨chosen, hchosen, parameter, hparameter, hfind⟩⟩

theorem evaluate_ends (hbuildable : registry.Buildable policy depth r)
    (hfilled : registry.Filled policy s.cells r) :
    Evaluates registry policy r s (registry.evaluate policy depth r s) := by
  induction depth generalizing r s with
  | zero => exact hbuildable.elim
  | succ depth ih =>
      unfold evaluate
      cases hcell : r.cell? with
      | some cell =>
          obtain ⟨object, hobject⟩ := Option.isSome_iff_exists.mp (hfilled r .refl cell hcell)
          simp only [Action.get_bind, hobject]
          refine ⟨.refl s, ?_⟩
          intro other hother
          rw [hcell, Option.some.injEq] at hother
          exact hother ▸ hobject
      | none =>
          obtain ⟨chosen, hchosen, hbelow, hdepends⟩ := hbuildable.exists_chosen
          refine (assemble_ends hbuildable.mem hchosen ?_ (by simp [hcell])).mono ?_
            (fun _ _ h => h)
          · intro parameter hparameter d hfind t ht
            exact ih (hbelow parameter hparameter d hfind)
              (ht ▸ hfilled.of_dependsOn (hdepends parameter hparameter d hfind))
          · rintro object t ⟨mid, call, hmid, hbuilds, -, rfl⟩
            refine ⟨hmid.trans ⟨.single (.work hbuildable.mem hbuilds ?_), rfl⟩, ?_⟩
            · simp [hcell]
            · simp [hcell]

theorem fillOwn_of_filled {evaluate : Registration H → Eval H (Instance H)} {cell : Nat}
    {object : Instance H} (hcell : r.cell? = some cell)
    (hobject : s.cells.get? cell = some object) :
    registry.fillOwn policy evaluate r s = .ok () s := by
  unfold fillOwn
  rw [hcell]
  simp [hobject]

theorem fillOwn_of_empty (hbuildable : registry.Buildable policy (depth + 1) r)
    (hbelow : ∀ d, registry.DependsOn policy r d → registry.Filled policy s.cells d) {cell : Nat}
    (hcell : r.cell? = some cell) (hempty : s.cells.get? cell = none) :
    Action.Ends
      (fun _ t => Acts registry policy s t ∧ ∃ object, t.cells = s.cells.fill cell object)
      (fun e t => Quiet registry policy s t ∧ Blamed s e t)
      (registry.fillOwn policy (registry.evaluate policy depth) r s) := by
  obtain ⟨chosen, hchosen, hbuild, hdepends⟩ := hbuildable.exists_chosen
  unfold fillOwn
  rw [hcell]
  simp only [Action.get_bind, hempty]
  refine (assemble_ends hbuildable.mem hchosen ?_ (by simpa [hcell])).bind ?_
  · intro parameter hparameter d hfind t ht
    exact evaluate_ends (hbuild parameter hparameter d hfind)
      (ht ▸ hbelow d (hdepends parameter hparameter d hfind))
  · rintro object t ⟨mid, call, hmid, hbuilds, hcompletes, rfl⟩
    refine ⟨hmid.1.tail (.complete hbuildable.mem hbuilds hcell ?_ ?_ hcompletes), object, ?_⟩
    · exact hmid.2 ▸ hempty
    · exact hmid.2 ▸ hbelow
    · exact congrArg (Cells.fill · cell object) hmid.2

theorem fillOwn_ends (hbuildable : registry.Buildable policy (depth + 1) r)
    (hbelow : ∀ d, registry.DependsOn policy r d → registry.Filled policy s.cells d) :
    Action.Ends
      (fun _ t => Acts registry policy s t ∧
        ∀ cell, r.cell? = some cell → (t.cells.get? cell).isSome)
      (fun e t => Acts registry policy s t ∧ Blamed s e t)
      (registry.fillOwn policy (registry.evaluate policy depth) r s) := by
  cases hcell : r.cell? with
  | none =>
      unfold fillOwn
      rw [hcell]
      exact ⟨.refl, by simp⟩
  | some cell =>
      cases hobject : s.cells.get? cell with
      | some object =>
          rw [fillOwn_of_filled hcell hobject]
          exact ⟨.refl, by simp [hobject]⟩
      | none =>
          refine (fillOwn_of_empty hbuildable hbelow hcell hobject).mono ?_
            (fun _ _ h => ⟨h.1.1, h.2⟩)
          rintro - t ⟨hacts, object, ht⟩
          refine ⟨hacts, ?_⟩
          rintro other ⟨⟩
          simp [ht, Cells.get?_fill_self object hobject]

theorem fillAll_succ {chosen : Constructor H}
    (hchosen : policy.choose? r.constructors = some chosen) :
    registry.fillAll policy (depth + 1) r = (do
      chosen.parameters.forM (registry.visit (registry.fillAll policy depth))
      registry.fillOwn policy (registry.evaluate policy depth) r) := by
  rw [fillAll, hchosen]

theorem visit_ends {chosen : Constructor H}
    (hchosen : policy.choose? r.constructors = some chosen)
    (hfill : ∀ parameter ∈ chosen.parameters, ∀ d, registry.find? parameter.key = some d →
      ∀ s : Store H, Action.Ends
        (fun _ t => Acts registry policy s t ∧ registry.Filled policy t.cells d)
        (fun e t => Acts registry policy s t ∧ Blamed s e t)
        (registry.fillAll policy depth d s)) :
    Action.Ends
      (fun _ t => Acts registry policy s t ∧
        ∀ d, registry.DependsOn policy r d → registry.Filled policy t.cells d)
      (fun e t => Acts registry policy s t ∧ Blamed s e t)
      (chosen.parameters.forM (registry.visit (registry.fillAll policy depth)) s) := by
  let Served : Parameter H → Store H → Prop := fun parameter t =>
    ∀ d, registry.find? parameter.key = some d → registry.Filled policy t.cells d
  refine (Action.Ends.forM (I := Acts registry policy s) (R := Served) ?_ .refl).mono ?_
    (fun _ _ h => h)
  · intro parameter hparameter t ht
    unfold visit
    cases hfind : registry.find? parameter.key with
    | none => exact ⟨ht, by simp [Served, hfind], fun _ h => h⟩
    | some d =>
        refine (hfill parameter hparameter d hfind t).mono ?_ ?_
        · rintro - u ⟨hu, hfilled⟩
          refine ⟨ht.trans hu, ?_, fun other h e he => (h e he).keep hu.keeps⟩
          intro e he
          rw [hfind, Option.some.injEq] at he
          exact he ▸ hfilled
        · rintro e u ⟨hu, hblamed⟩
          exact ⟨ht.trans hu, hblamed.after ht⟩
  · rintro - t ⟨ht, hserved, -⟩
    refine ⟨ht, ?_⟩
    rintro d ⟨other, hother, parameter, hparameter, hfind⟩
    rw [hchosen, Option.some.injEq] at hother
    subst hother
    exact hserved parameter hparameter d hfind

/-- After filling, everything that the registration reaches is filled; until then only calls can
fail. -/
theorem fillAll_ends (hbuildable : registry.Buildable policy depth r) :
    Action.Ends
      (fun _ t => Acts registry policy s t ∧ registry.Filled policy t.cells r)
      (fun e t => Acts registry policy s t ∧ Blamed s e t)
      (registry.fillAll policy depth r s) := by
  induction depth generalizing r s with
  | zero => exact hbuildable.elim
  | succ depth ih =>
      obtain ⟨chosen, hchosen, hbelow, -⟩ := hbuildable.exists_chosen
      rw [fillAll_succ hchosen]
      refine (visit_ends hchosen fun parameter hparameter d hfind s =>
        ih (hbelow parameter hparameter d hfind)).bind ?_
      rintro - mid ⟨hmid, hfilled⟩
      refine (fillOwn_ends hbuildable hfilled).mono ?_ ?_
      · rintro - t ⟨ht, hown⟩
        exact ⟨hmid.trans ht, filled_of_dependsOn hown fun d hd => (hfilled d hd).keep ht.keeps⟩
      · rintro e t ⟨ht, hblamed⟩
        exact ⟨hmid.trans ht, hblamed.after hmid⟩

theorem fillAll_of_filled (hbuildable : registry.Buildable policy depth r)
    (hfilled : registry.Filled policy s.cells r) :
    registry.fillAll policy depth r s = .ok () s := by
  induction depth generalizing r with
  | zero => exact hbuildable.elim
  | succ depth ih =>
      obtain ⟨chosen, hchosen, hbelow, hdepends⟩ := hbuildable.exists_chosen
      have hparameters : ∀ parameters : List (Parameter H),
          (∀ parameter ∈ parameters, parameter ∈ chosen.parameters) →
            parameters.forM (registry.visit (registry.fillAll policy depth)) s = .ok () s := by
        intro parameters hsub
        induction parameters with
        | nil => rfl
        | cons parameter rest ihrest =>
            have hhead : registry.visit (registry.fillAll policy depth) parameter s =
                .ok () s := by
              unfold visit
              cases hfind : registry.find? parameter.key with
              | none => rfl
              | some d =>
                  have hparameter := hsub parameter (by simp)
                  exact ih (hbelow parameter hparameter d hfind)
                    (hfilled.of_dependsOn (hdepends parameter hparameter d hfind))
            exact (Action.bind_of_ok _ hhead).trans
              (ihrest fun other hother => hsub other (by simp [hother]))
      rw [fillAll_succ hchosen]
      apply (Action.bind_of_ok _ (hparameters chosen.parameters fun _ h => h)).trans
      cases hcell : r.cell? with
      | none =>
          unfold fillOwn
          rw [hcell]
          rfl
      | some cell =>
          obtain ⟨object, hobject⟩ := Option.isSome_iff_exists.mp (hfilled r .refl cell hcell)
          exact fillOwn_of_filled hcell hobject

end Registry

end Wiring
