import Wiring.Proofs.Container.Preparation
import Wiring.Proofs.Injection.Singletons

namespace Wiring

variable {H : Host}

/-- Every plan of the container is small enough for its nodes to be numbered. -/
def Container.PlansFit (c : Container H) : Prop :=
  ∀ key plan, (c.registry.plan c.options key).result = .ok plan → plan.nodes.size ≤ UInt32.size

theorem Container.plansFit_of_all {c : Container H} (hr : c.registry.Assembled)
    (hall : ∀ r ∈ c.registry.toList, ((c.registry.plan c.options r.key).result.toOption.all
      fun plan => plan.nodes.size ≤ UInt32.size) = true) : c.PlansFit := by
  intro key plan hplan
  cases hroot : c.registry.find? key with
  | none =>
      rw [Registry.plan_of_find?_eq_none hroot] at hplan
      cases hplan
  | some r =>
      have hkey := Key.beq_symm (hr.coherent.find?_key hroot)
      have hown := Registry.plan_congr hkey hplan
      have hr := hall r (Registry.Coherent.mem_of_find? hroot)
      rw [hown] at hr
      exact of_decide_eq_true hr

namespace Cells

variable {registrations : List (Registration H)}

theorem mem_ofRegistrations {r : Registration H} {object : Instance H} (hmem : r ∈ registrations)
    (hgiven : r.givenInstance = some object) :
    (r.sequence, object) ∈ (ofRegistrations registrations).filled :=
  List.mem_filterMap.mpr ⟨r, hmem, by rw [hgiven]; rfl⟩

theorem exists_of_mem_ofRegistrations {cell : Nat} {object : Instance H}
    (hmem : (cell, object) ∈ (ofRegistrations registrations).filled) :
    ∃ r ∈ registrations, r.givenInstance = some object ∧ r.sequence = cell := by
  obtain ⟨r, hr, hentry⟩ := List.mem_filterMap.mp hmem
  obtain ⟨found, hgiven, heq⟩ := Option.map_eq_some_iff.mp hentry
  cases heq
  exact ⟨r, hr, hgiven, rfl⟩

theorem nodup_ofRegistrations (hnodup : registrations.Nodup)
    (hinj : ∀ a ∈ registrations, ∀ b ∈ registrations, a.sequence = b.sequence → a = b) :
    ((ofRegistrations registrations).filled.map Prod.fst).Nodup := by
  unfold ofRegistrations
  rw [List.Nodup, List.pairwise_map, List.pairwise_filterMap]
  apply hnodup.imp_of_mem
  intro a b ha hb hne first hfirst second hsecond hsame
  obtain ⟨_, -, rfl⟩ := Option.map_eq_some_iff.mp hfirst
  obtain ⟨_, -, rfl⟩ := Option.map_eq_some_iff.mp hsecond
  exact hne (hinj a ha b hb hsame)

end Cells

theorem Progress.lawful {registry : Registry H} {policy : ConstructorPolicy} {number : Nat}
    {r : Registration H} {s t : Store H} (hs : s.Lawful registry policy)
    (h : Relation.ReflTransGen (Progress registry policy number r) s t) :
    t.Lawful registry policy := by
  induction h with
  | refl => exact hs
  | tail _ hstep ih =>
      cases hstep with
      | act hact => exact ih.act hact
      | finish => exact ih.silent rfl ⟨[], List.forall_mem_nil _, by simp⟩

namespace Ledger

variable {c : Container H} {l m : Ledger H}

/-- The store is lawful, and all that was ever produced for the key of a singleton is the instance in
its cell. -/
structure Lawful (c : Container H) (l : Ledger H) : Prop where
  store : l.store.Lawful c.registry c.options.constructorPolicy
  produced : ∀ entry ∈ l.produced, ∀ r, c.registry.find? entry.1 = some r →
    ∀ cell, r.cell? = some cell → l.store.cells.get? cell = some entry.2

theorem Step.keeps (hl : l.Sound c) (h : Step c l m) : l.store.cells.Keeps m.store.cells := by
  cases h with
  | chatter hchatter => exact hchatter.later.keeps
  | issue hplan hcompile =>
      obtain ⟨program, -, -, rfl⟩ := Factory.of_compile_eq_ok hcompile
      exact .refl _
  | produce hissue hproduce =>
      have hlater := hl.produce_laterBy hissue
      rw [hproduce] at hlater
      exact hlater.keeps
  | fail hissue hproduce =>
      have hlater := hl.produce_laterBy hissue
      rw [hproduce] at hlater
      exact hlater.keeps

theorem Steps.keeps (hr : c.registry.Assembled) (hl : l.Sound c) (h : Steps c l m) :
    l.store.cells.Keeps m.store.cells := by
  induction h with
  | refl => exact .refl _
  | tail hsteps hstep ih => exact ih.trans (hstep.keeps (hl.steps hr hsteps))

namespace Lawful

theorem later {t : Store H} {issued : List (Issue H)} (h : l.Lawful c)
    (ht : t.Lawful c.registry c.options.constructorPolicy)
    (hkeeps : l.store.cells.Keeps t.cells) : Lawful c ⟨t, issued, l.produced⟩ :=
  ⟨ht, fun entry hentry r hr cell hcell => hkeeps _ _ (h.produced entry hentry r hr cell hcell)⟩

theorem step (h : l.Lawful c) (hl : l.Sound c) (hr : c.registry.Assembled) (hfits : c.PlansFit)
    (hstep : Step c l m) : m.Lawful c := by
  have hkeeps := hstep.keeps hl
  have hends {issue : Issue H} (hissue : issue ∈ l.issued) :=
    hl.produce_ends hr hissue (hfits _ _ (hl.compiled issue hissue).1)
  cases hstep with
  | chatter hchatter => exact h.later (h.store.silent hchatter.cells hchatter.journal) hkeeps
  | issue hplan hcompile =>
      obtain ⟨program, -, -, rfl⟩ := Factory.of_compile_eq_ok hcompile
      refine h.later (h.store.silent rfl ⟨_, ?_, Store.journal_enter _ _⟩) hkeeps
      exact List.forall_mem_singleton.mpr rfl
  | @produce issue object t hissue hproduce =>
      obtain ⟨r, hroot, hproduced⟩ := hends hissue
      rw [hproduce] at hproduced
      have hlawful : Lawful c ⟨t, l.issued, l.produced⟩ :=
        h.later (Progress.lawful h.store hproduced.1) hkeeps
      refine ⟨hlawful.store, ?_⟩
      intro entry hentry d hd cell hcell
      rcases List.mem_append.mp hentry with hold | hnew
      · exact hlawful.produced entry hold d hd cell hcell
      · cases List.mem_singleton.mp hnew
        rw [hroot, Option.some.injEq] at hd
        exact hproduced.2 cell (hd ▸ hcell)
  | fail hissue hproduce =>
      obtain ⟨r, -, hfailed⟩ := hends hissue
      rw [hproduce] at hfailed
      exact h.later (Progress.lawful h.store hfailed.1) hkeeps

theorem steps (h : l.Lawful c) (hl : l.Sound c) (hr : c.registry.Assembled) (hfits : c.PlansFit)
    (hsteps : Steps c l m) : m.Lawful c := by
  induction hsteps with
  | refl => exact h
  | tail hsteps hstep ih => exact ih.step (hl.steps hr hsteps) hr hfits hstep

end Lawful

end Ledger

theorem Builder.Made.given_of_cell {b : Builder H} (hb : b.Made) {r : Registration H}
    (hr : r ∈ b.container.registry.toList) {cell : Nat} (hcell : r.cell? = some cell)
    {object : Instance H}
    (hobject : (Cells.ofRegistrations b.container.registry.ordered).get? cell = some object) :
    r.givenInstance = some object := by
  have hcoherent := (Registry.Assembled.freeze hb.assembled).coherent
  obtain ⟨d, hd, hgiven, hsequence⟩ :=
    Cells.exists_of_mem_ofRegistrations (Cells.mem_of_get? hobject)
  obtain rfl : d = r := hcoherent.sequence_inj d (Registry.mem_ordered.mp hd) r hr
    (hsequence.trans (Registration.sequence_of_cell? hcell).symm)
  exact hgiven

theorem Builder.silent_ledger (b : Builder H) (world : H.World) (hash : List Datum → UInt64) :
    ∀ entry ∈ (b.ledger world hash).store.journal.toList, entry.call? = none := by
  intro entry hentry
  change entry ∈ (Journal.ofLog _).toList at hentry
  rw [Journal.ofLog, Array.toList_map] at hentry
  obtain ⟨record, -, rfl⟩ := List.mem_map.mp hentry
  rfl

theorem Builder.ledger_lawful {b : Builder H} (hb : b.Made) (world : H.World)
    (hash : List Datum → UInt64) : (b.ledger world hash).Lawful b.container := by
  have hcoherent := (Registry.Assembled.freeze hb.assembled).coherent
  have hperm : b.container.registry.ordered.Perm b.registry.freeze.toList := sorted_perm _ _
  have honce :
      ((Cells.ofRegistrations b.container.registry.ordered).filled.map Prod.fst).Nodup := by
    apply Cells.nodup_ofRegistrations (hperm.nodup_iff.mpr hcoherent.nodup_toList)
    intro r hr d hd
    exact hcoherent.sequence_inj r (hperm.mem_iff.mp hr) d (hperm.mem_iff.mp hd)
  refine ⟨⟨?_, honce, ?_⟩, List.forall_mem_nil _⟩
  · intro r hr object hobject
    exact Cells.get?_of_mem honce (Cells.mem_ofRegistrations (hperm.mem_iff.mpr hr) hobject)
  · obtain ⟨records, hrecords⟩ :=
      (Annals.empty (Cells.ofRegistrations b.container.registry.ordered)).silent
        ⟨_, b.silent_ledger world hash, (List.nil_append _).symm⟩
    exact ⟨_, hrecords⟩

namespace Session.Reachable

variable {c : Container H} {q : Session H}

theorem exists_lawful (h : q.Reachable c) (hfits : c.PlansFit) :
    ∃ l : Ledger H, l.Accounts c q ∧ l.Sound c ∧ l.Lawful c := by
  have hr := h.assembled
  obtain ⟨b, world, hash, l, hb, rfl, hsteps, haccounts⟩ := h.exists_steps
  have hsound := b.ledger_sound world hash
  exact ⟨l, haccounts, hsound.steps hr hsteps,
    (Builder.ledger_lawful hb world hash).steps hsound hr hfits hsteps⟩

/-- In every session, whatever is called in it and whatever fails: filled cells never change, and no
two registrations share a cell; ready-made instances are in their cells, and so is whatever was
resolved for the key of a singleton or delivered to a constructor for it; every call of a constructor
or an adapter was made for a registration that was not ready-made, and none completed a singleton
that another had completed before. -/
theorem one_instance_per_singleton (h : q.Reachable c) (hfits : c.PlansFit) :
    (∀ more cell object, q.store.cells.get? cell = some object →
      (q.run c more).store.cells.get? cell = some object) ∧
    (∀ r ∈ c.registry.toList, ∀ d ∈ c.registry.toList, ∀ cell,
      r.cell? = some cell → d.cell? = some cell → r = d) ∧
    (∀ r ∈ c.registry.toList, ∀ object, r.givenInstance = some object →
      q.store.cells.get? r.sequence = some object) ∧
    (∀ key object, (key, object) ∈ q.resolved → ∀ r, c.registry.find? key = some r →
      ∀ cell, r.cell? = some cell → q.store.cells.get? cell = some object) ∧
    (∀ callee args result,
      Entry.call (.construct callee args result) ∈ q.store.journal.toList →
        List.Forall₂ (Delivered c.registry q.store.cells) callee.parameters args) ∧
    ∃ records, Annals c.registry c.options.constructorPolicy q.store.cells q.store.journal
      records := by
  have hr := h.assembled
  obtain ⟨l, haccounts, hsound, hlawful⟩ := h.exists_lawful hfits
  have hstore : l.store = q.store := haccounts.state.store
  obtain ⟨records, hrecords⟩ := hlawful.store.annals
  rw [hstore] at hrecords
  refine ⟨?_, ?_, hstore ▸ hlawful.store.given, ?_, fun _ _ _ => hrecords.delivered,
    records, hrecords⟩
  · intro more cell object hobject
    obtain ⟨m, hsteps, hmore⟩ := haccounts.run more
    have hm : m.store = (q.run c more).store := hmore.state.store
    exact hm ▸ hsteps.keeps hr hsound cell object (hstore ▸ hobject)
  · intro r hmem d hd cell hcell hother
    apply hr.coherent.sequence_inj r hmem d hd
    rw [Registration.sequence_of_cell? hcell, Registration.sequence_of_cell? hother]
  · intro key object hobject r hroot cell hcell
    obtain ⟨other, hkey, hproduced⟩ := haccounts.resolved _ hobject
    have hother : c.registry.find? other = some r := c.registry.find?_congr hkey ▸ hroot
    exact hstore ▸ hlawful.produced _ hproduced r hother cell hcell

end Session.Reachable

namespace Sample

theorem plansFit : container.PlansFit := by
  apply Container.plansFit_of_all (.freeze made.assembled)
  decide +kernel

theorem motor_unique : session.Reachable container ∧ container.PlansFit ∧
    ∃ object, session.store.cells.get? 2 = some object ∧
      (∀ more, (session.run container more).store.cells.get? 2 = some object) ∧
      ∃ records, Annals container.registry container.options.constructorPolicy
        session.store.cells session.store.journal records := by
  obtain ⟨hstays, -, -, -, -, hrecords⟩ := reachable.one_instance_per_singleton plansFit
  have hbuilt : (session.store.cells.get? 2).isSome = true := by decide +kernel
  obtain ⟨object, hobject⟩ := Option.isSome_iff_exists.mp hbuilt
  exact ⟨reachable, plansFit, object, hobject, fun more => hstays more 2 object hobject, hrecords⟩

end Sample

end Wiring
