import Wiring.Proofs.Container.Singletons
import Wiring.Proofs.Injection.Occasions

namespace Wiring

variable {H : Host}

namespace Registry

open Wiring.Action (Leads)

variable {registry : Registry H} {policy : ConstructorPolicy} {P : Registration H → Prop}
  {r : Registration H}

theorem prepare_builds (hmem : r ∈ registry.toList)
    (hbelow : ∀ d, registry.Reaches policy r d → P d) (number : Nat) :
    Leads (Store.BuildsOnly registry policy P) (registry.prepare policy number r) := by
  intro s
  by_cases hprepared : number ∈ s.initialized
  · rw [prepare_of_mem hprepared]
    exact refl_of _ s
  · rw [prepare_of_not_mem hprepared]
    exact (fillAll_builds hmem hbelow).bind (fun _ _ => .of_journal_eq rfl) s

theorem produce_builds (hmem : r ∈ registry.toList)
    (hbelow : ∀ d, registry.Reaches policy r d → P d) (number : Nat) :
    Leads (Store.BuildsOnly registry policy P) (registry.produce policy number r) :=
  (prepare_builds hmem hbelow number).bind fun _ => evaluate_builds hmem fun d hd _ => hbelow d hd

end Registry

namespace Ledger

variable {c : Container H} {l m : Ledger H}

theorem Sound.builds (h : l.Sound c) (hr : c.registry.Assembled) (hfits : c.PlansFit)
    {issue : Issue H} (hissue : issue ∈ l.issued) :
    ∃ r, c.registry.find? issue.key = some r ∧
      Store.BuildsOnly c.registry c.options.constructorPolicy
        (c.registry.Reaches c.options.constructorPolicy r) l.store
        (Action.finalState (issue.factory.produce l.store)) := by
  obtain ⟨r, hroot, -, -, hproduce⟩ :=
    h.produce_eq hr hissue (hfits _ _ (h.compiled issue hissue).1)
  rw [hproduce]
  exact ⟨r, hroot, Registry.produce_builds (Registry.Coherent.mem_of_find? hroot)
    (fun _ hd => hd) issue.factory.number l.store⟩

theorem Step.builds (hl : l.Sound c) (hr : c.registry.Assembled) (hfits : c.PlansFit)
    (h : Step c l m) :
    Store.BuildsOnly c.registry c.options.constructorPolicy (fun _ => True) l.store m.store := by
  cases h with
  | chatter hchatter => exact .of_silent hchatter.journal
  | issue _ hcompile =>
      obtain ⟨program, -, -, rfl⟩ := Factory.of_compile_eq_ok hcompile
      exact .of_silent ⟨[.remark _], List.forall_mem_singleton.mpr rfl, Store.journal_enter _ _⟩
  | produce hissue hproduce =>
      obtain ⟨r, -, hbuilds⟩ := hl.builds hr hfits hissue
      rw [hproduce] at hbuilds
      exact hbuilds.mono fun _ _ => trivial
  | fail hissue hproduce =>
      obtain ⟨r, -, hbuilds⟩ := hl.builds hr hfits hissue
      rw [hproduce] at hbuilds
      exact hbuilds.mono fun _ _ => trivial

theorem Steps.builds (hl : l.Sound c) (hr : c.registry.Assembled) (hfits : c.PlansFit)
    (h : Steps c l m) :
    Store.BuildsOnly c.registry c.options.constructorPolicy (fun _ => True) l.store m.store := by
  induction h with
  | refl => exact refl_of _ _
  | tail hsteps hstep ih => exact trans_of _ ih (hstep.builds (hl.steps hr hsteps) hr hfits)

end Ledger

theorem Session.Reachable.exists_onBehalfOf {c : Container H} {q : Session H} (h : q.Reachable c)
    (hfits : c.PlansFit) {call : Call H} (hcall : Entry.call call ∈ q.store.journal.toList) :
    ∃ r ∈ c.registry.toList, call.OnBehalfOf c.registry c.options.constructorPolicy r := by
  have hr := h.assembled
  obtain ⟨b, world, hash, l, -, rfl, hsteps, haccounts⟩ := h.exists_steps
  obtain ⟨entries, hentries, hcalls⟩ := hsteps.builds (b.ledger_sound world hash) hr hfits
  rw [haccounts.state.store] at hentries
  change q.store.journal.toList = _ at hentries
  rw [hentries] at hcall
  rcases List.mem_append.mp hcall with hold | hnew
  · cases b.silent_ledger world hash _ hold
  · obtain ⟨r, hmem, -, hbehalf⟩ := hcalls call hnew
    exact ⟨r, hmem, hbehalf⟩

end Wiring
