import Wiring.Proofs.Container.Accounting
import Wiring.Proofs.Factory.Calm

/-!
Prepared factories. In every state that a container can reach, a factory that remembers having
completed its initializer finds everything below its root filled. Factories share the cells but not
their memories, so the argument goes over all calls of all factories.
-/

namespace Wiring

variable {H : Host}

namespace Registry

variable {registry : Registry H} {options : Options}

theorem plan_congr {key other : Key} (hkey : (key == other) = true) {plan : Plan H}
    (hplan : (registry.plan options key).result = .ok plan) :
    (registry.plan options other).result = .ok plan := by
  cases hroot : registry.find? key with
  | none =>
      rw [plan_of_find?_eq_none hroot] at hplan
      cases hplan
  | some r =>
      have hother : registry.find? other = some r := registry.find?_congr hkey ▸ hroot
      exact (plan_eq_ok_iff hother).mpr ((plan_eq_ok_iff hroot).mp hplan)

/-- The factories of a plan do, under every handler, what direct injection does. -/
theorem produce_simulated (hr : registry.Assembled) {key : Key} {plan : Plan H}
    {program : Program H} {r : Registration H}
    (hplan : (registry.plan options key).result = .ok plan)
    (hfits : plan.nodes.size ≤ UInt32.size) (hprogram : plan.program = .ok program)
    (hroot : registry.find? key = some r) (number nodeCount : Nat) {s : Store H}
    (hprepared : s.Prepared registry options.constructorPolicy number r) :
    (program.factory number nodeCount).produce s =
        registry.produce options.constructorPolicy number r s ∧
      ∀ handle : Handler H, program.produce handle number s =
        (some <$> (program.factory number nodeCount).produce) s := by
  obtain ⟨d, other, hd, -, hother, hsimulated⟩ := registry.simulated hr hplan hfits
  rw [hroot, Option.some.injEq] at hd
  rw [hprogram, Except.ok.injEq] at hother
  subst hd hother
  have hown := congrFun (program.produce_ownFailures number nodeCount) s
  refine ⟨Action.eq_of_map_some (hown.symm.trans (hsimulated _ number s hprepared)), ?_⟩
  intro handle
  rw [hsimulated handle number s hprepared, ← hsimulated Handler.ownFailures number s hprepared,
    hown]

end Registry

theorem Progress.prepared {registry : Registry H} {policy : ConstructorPolicy} {number : Nat}
    {r : Registration H} {s t : Store H} (hprepared : s.Prepared registry policy number r)
    (h : Relation.ReflTransGen (Progress registry policy number r) s t) :
    t.Prepared registry policy number r := by
  induction h with
  | refl => exact hprepared
  | tail _ hstep ih =>
      cases hstep with
      | act hact =>
          intro hmem
          rw [hact.initialized_eq] at hmem
          exact (ih hmem).keep hact.keeps
      | finish hfilled => exact fun _ => hfilled

namespace Ledger

variable {c : Container H} {l m : Ledger H}

structure Sound (c : Container H) (l : Ledger H) : Prop where
  count : l.issued.length = l.store.nextFactory
  /-- Factories are numbered in the order in which they are compiled. -/
  numbered : ∀ (i : Nat) (issue : Issue H), l.issued[i]? = some issue → issue.factory.number = i
  compiled : ∀ issue ∈ l.issued,
    (c.registry.plan c.options issue.key).result = .ok issue.plan ∧
      ∃ program, issue.plan.program = .ok program ∧
        issue.factory = program.factory issue.factory.number issue.plan.nodes.size
  initialized_lt : ∀ k ∈ l.store.initialized, k < l.store.nextFactory
  prepared : ∀ issue ∈ l.issued, issue.plan.nodes.size ≤ UInt32.size →
    ∀ r, c.registry.find? issue.key = some r →
      l.store.Prepared c.registry c.options.constructorPolicy issue.factory.number r

namespace Sound

theorem issue_eq (h : l.Sound c) {issue other : Issue H} (hissue : issue ∈ l.issued)
    (hother : other ∈ l.issued) (hnumber : issue.factory.number = other.factory.number) :
    issue = other := by
  obtain ⟨i, hi⟩ := List.getElem?_of_mem hissue
  obtain ⟨j, hj⟩ := List.getElem?_of_mem hother
  have hij : i = j := by rw [← h.numbered i issue hi, ← h.numbered j other hj, hnumber]
  subst hij
  rw [hi, Option.some.injEq] at hj
  exact hj

theorem number_lt (h : l.Sound c) {issue : Issue H} (hissue : issue ∈ l.issued) :
    issue.factory.number < l.store.nextFactory := by
  obtain ⟨i, hi⟩ := List.getElem?_of_mem hissue
  rw [h.numbered i issue hi, ← h.count]
  exact (List.getElem?_eq_some_iff.mp hi).1

theorem chatter (h : l.Sound c) {t : Store H} (ht : l.store.Chatter t) :
    Sound c { l with store := t } where
  count := h.count.trans ht.nextFactory.symm
  numbered := h.numbered
  compiled := h.compiled
  initialized_lt := by
    intro k hk
    rw [ht.nextFactory]
    exact h.initialized_lt k (ht.initialized ▸ hk)
  prepared := by
    intro issue hissue hfits r hr hmem
    rw [ht.initialized] at hmem
    exact (h.prepared issue hissue hfits r hr hmem).keep ht.later.keeps

theorem issue (h : l.Sound c) {key : Key} {plan : Plan H} {factory : Factory H} {t : Store H}
    (hplan : (c.registry.plan c.options key).result = .ok plan)
    (hcompile : Factory.compile plan l.store = .ok factory t) :
    Sound c { l with store := t, issued := l.issued ++ [⟨key, plan, factory⟩] } := by
  obtain ⟨program, hprogram, rfl, rfl⟩ := Factory.of_compile_eq_ok hcompile
  refine ⟨?_, ?_, ?_, ?_, ?_⟩
  · rw [List.length_append, h.count]
    rfl
  · intro i issue hi
    rcases Nat.lt_or_ge i l.issued.length with hlt | hge
    · rw [List.getElem?_append_left hlt] at hi
      exact h.numbered i issue hi
    · rw [List.getElem?_append_right hge] at hi
      obtain ⟨hlt, rfl⟩ := List.getElem?_eq_some_iff.mp hi
      have hi : i = l.store.nextFactory := by
        rw [← h.count]
        simp only [List.length_singleton] at hlt
        omega
      simp [Program.factory, hi]
  · intro issue hissue
    rcases List.mem_append.mp hissue with hold | hnew
    · exact h.compiled issue hold
    · cases List.mem_singleton.mp hnew
      exact ⟨hplan, program, hprogram, rfl⟩
  · intro k hk
    exact Nat.lt_succ_of_lt (h.initialized_lt k hk)
  · intro issue hissue hfits r hr hmem
    rcases List.mem_append.mp hissue with hold | hnew
    · exact h.prepared issue hold hfits r hr hmem
    · cases List.mem_singleton.mp hnew
      exact absurd (h.initialized_lt _ hmem) (Nat.lt_irrefl _)

theorem produce_laterBy (h : l.Sound c) {issue : Issue H} (hissue : issue ∈ l.issued) :
    l.store.LaterBy issue.factory.number (Action.finalState (issue.factory.produce l.store)) := by
  obtain ⟨-, program, -, hfactory⟩ := h.compiled issue hissue
  have hlater := program.produce_laterBy issue.factory.number issue.plan.nodes.size l.store
  rwa [← hfactory] at hlater

/-- A factory does what direct injection does for the registration of its key. -/
theorem produce_eq (h : l.Sound c) (hr : c.registry.Assembled) {issue : Issue H}
    (hissue : issue ∈ l.issued) (hfits : issue.plan.nodes.size ≤ UInt32.size) :
    ∃ r, c.registry.find? issue.key = some r ∧
      c.registry.Buildable c.options.constructorPolicy c.registry.size r ∧
      l.store.Prepared c.registry c.options.constructorPolicy issue.factory.number r ∧
      issue.factory.produce l.store =
        c.registry.produce c.options.constructorPolicy issue.factory.number r l.store := by
  obtain ⟨hplan, program, hprogram, hfactory⟩ := h.compiled issue hissue
  obtain ⟨r, -, hroot, hbuildable, -⟩ := c.registry.simulated hr hplan hfits
  have hprepared := h.prepared issue hissue hfits r hroot
  obtain ⟨hsimulated, -⟩ := Registry.produce_simulated hr hplan hfits hprogram hroot
    issue.factory.number issue.plan.nodes.size hprepared
  rw [← hfactory] at hsimulated
  exact ⟨r, hroot, hbuildable, hprepared, hsimulated⟩

theorem produce_ends (h : l.Sound c) (hr : c.registry.Assembled) {issue : Issue H}
    (hissue : issue ∈ l.issued) (hfits : issue.plan.nodes.size ≤ UInt32.size) :
    ∃ r, c.registry.find? issue.key = some r ∧
      Action.Ends
        (fun object t =>
          Relation.ReflTransGen
            (Progress c.registry c.options.constructorPolicy issue.factory.number r) l.store t ∧
          ∀ cell, r.cell? = some cell → t.cells.get? cell = some object)
        (fun e t =>
          Relation.ReflTransGen
            (Progress c.registry c.options.constructorPolicy issue.factory.number r) l.store t ∧
          Blamed l.store e t)
        (issue.factory.produce l.store) := by
  obtain ⟨r, hroot, hbuildable, hprepared, hproduce⟩ := h.produce_eq hr hissue hfits
  exact ⟨r, hroot, hproduce ▸ Registry.produce_ends hbuildable hprepared⟩

theorem produce (h : l.Sound c) (hr : c.registry.Assembled) {issue : Issue H}
    (hissue : issue ∈ l.issued) (produced : List (Key × Instance H)) :
    Sound c ⟨Action.finalState (issue.factory.produce l.store), l.issued, produced⟩ := by
  have hlater := h.produce_laterBy hissue
  refine ⟨?_, h.numbered, h.compiled, ?_, ?_⟩
  · exact h.count.trans hlater.nextFactory.symm
  · intro k hk
    have hlt : k < l.store.nextFactory := by
      rcases hlater.initialized k hk with hold | rfl
      · exact h.initialized_lt k hold
      · exact h.number_lt hissue
    exact hlater.nextFactory ▸ hlt
  · intro other hother hfits r hroot
    have hbefore := h.prepared other hother hfits r hroot
    by_cases hnumber : other.factory.number = issue.factory.number
    · obtain rfl := h.issue_eq hother hissue hnumber
      obtain ⟨d, hd, hends⟩ := h.produce_ends hr hother hfits
      rw [hroot, Option.some.injEq] at hd
      subst hd
      cases hresult : other.factory.produce l.store with
      | ok object t =>
          rw [hresult] at hends
          exact Progress.prepared hbefore hends.1
      | error e t =>
          rw [hresult] at hends
          exact Progress.prepared hbefore hends.1
    · intro hmem
      rcases hlater.initialized _ hmem with hold | heq
      · exact (hbefore hold).keep hlater.keeps
      · exact absurd heq hnumber

theorem step (h : l.Sound c) (hr : c.registry.Assembled) (hstep : Step c l m) : m.Sound c := by
  cases hstep with
  | chatter hchatter => exact h.chatter hchatter
  | issue hplan hcompile => exact h.issue hplan hcompile
  | produce hissue hproduce =>
      have hfinal := h.produce hr hissue
      rw [hproduce] at hfinal
      exact hfinal _
  | fail hissue hproduce =>
      have hfinal := h.produce hr hissue
      rw [hproduce] at hfinal
      exact hfinal _

theorem steps (h : l.Sound c) (hr : c.registry.Assembled) (hsteps : Steps c l m) :
    m.Sound c := by
  induction hsteps with
  | refl => exact h
  | tail _ hstep ih => exact ih.step hr hstep

end Sound

end Ledger

theorem Builder.ledger_sound (b : Builder H) (world : H.World) (hash : List Datum → UInt64) :
    (b.ledger world hash).Sound b.container where
  count := rfl
  numbered := by
    intro i issue hi
    simp [ledger] at hi
  compiled := List.forall_mem_nil _
  initialized_lt := List.forall_mem_nil _
  prepared := List.forall_mem_nil _

namespace Session.Reachable

variable {c : Container H} {q : Session H}

theorem exists_ledger (h : q.Reachable c) : ∃ l : Ledger H, l.Accounts c q ∧ l.Sound c := by
  have hr := h.assembled
  obtain ⟨b, world, hash, l, -, rfl, hsteps, haccounts⟩ := h.exists_steps
  exact ⟨l, haccounts, (b.ledger_sound world hash).steps hr hsteps⟩

theorem factory_spec (h : q.Reachable c) {key : Key} {factory : Factory H}
    (hfactory : (key, factory) ∈ q.factories) {plan : Plan H}
    (hplan : (c.registry.plan c.options key).result = .ok plan)
    (hfits : plan.nodes.size ≤ UInt32.size) :
    ∃ r program, c.registry.find? key = some r ∧
      c.registry.Buildable c.options.constructorPolicy c.registry.size r ∧
      plan.program = .ok program ∧
      factory = program.factory factory.number plan.nodes.size ∧
      q.store.Prepared c.registry c.options.constructorPolicy factory.number r := by
  obtain ⟨l, haccounts, hsound⟩ := h.exists_ledger
  obtain ⟨issue, hissue, hkey, rfl⟩ := haccounts.factories _ hfactory
  obtain ⟨hissued, program, hprogram, hmade⟩ := hsound.compiled issue hissue
  have hsame := Registry.plan_congr hkey hissued
  rw [hplan, Except.ok.injEq] at hsame
  rw [← hsame] at hprogram hmade
  obtain ⟨r, -, hroot, hbuildable, -⟩ := c.registry.simulated h.assembled hplan hfits
  have hroot' : c.registry.find? issue.key = some r := c.registry.find?_congr hkey ▸ hroot
  refine ⟨r, program, hroot, hbuildable, hprogram, hmade, ?_⟩
  have hprepared := hsound.prepared issue hissue (hsame ▸ hfits) r hroot'
  rw [haccounts.state.store] at hprepared
  exact hprepared

theorem compile_spec (h : q.Reachable c) {key : Key} {plan : Plan H}
    (hplan : (c.registry.plan c.options key).result = .ok plan)
    (hfits : plan.nodes.size ≤ UInt32.size) :
    ∃ r program factory t, c.registry.find? key = some r ∧
      c.registry.Buildable c.options.constructorPolicy c.registry.size r ∧
      plan.program = .ok program ∧
      Factory.compile plan q.store = .ok factory t ∧
      factory = program.factory factory.number plan.nodes.size ∧
      t.Prepared c.registry c.options.constructorPolicy factory.number r := by
  obtain ⟨l, haccounts, hsound⟩ := h.exists_ledger
  obtain ⟨r, program, hroot, hbuildable, hprogram, -⟩ :=
    c.registry.simulated h.assembled hplan hfits
  have hcompile := Factory.compile_eq hprogram q.store
  refine ⟨r, program, _, _, hroot, hbuildable, hprogram, hcompile, rfl, ?_⟩
  intro hmem
  have hlt := hsound.initialized_lt q.store.nextFactory
  rw [haccounts.state.store] at hlt
  exact absurd (hlt hmem) (Nat.lt_irrefl _)

end Session.Reachable

end Wiring
