import Wiring.Proofs.Container.Singletons
import Wiring.Proofs.Injection.Products

namespace Wiring

variable {H : Host}

namespace Registry

variable {registry : Registry H} {policy : ConstructorPolicy} {r : Registration H}

theorem prepare_exchanges (hr : registry.Assembled) (hmem : r ∈ registry.toList) (number : Nat) :
    Exchanges registry policy [] (registry.prepare policy number r) fun _ => [] := by
  unfold prepare
  refine .ofState fun s => ?_
  split
  · exact .pure rfl
  · refine (fillAll_exchanges hr registry.size hmem).bind fun _ => ?_
    exact fun s held hs => hs.silent rfl (Nat.le_refl _) ⟨[], List.forall_mem_nil _, by simp⟩

theorem produce_exchanges (hr : registry.Assembled) (hmem : r ∈ registry.toList) (number : Nat) :
    Exchanges registry policy [] (registry.produce policy number r) fun object =>
      (r.product? object).toList :=
  (prepare_exchanges hr hmem number).bind fun _ => evaluate_exchanges registry.size hmem

theorem product?_congr (registry : Registry H) {key other : Key} (hkey : (other == key) = true)
    (object : Instance H) :
    registry.product? (other, object) = registry.product? (key, object) := by
  unfold product?
  rw [registry.find?_congr hkey]

end Registry

namespace Ledger

variable {c : Container H} {l m : Ledger H}

/-- The books are balanced, and what was produced has been paid for. -/
def Solvent (c : Container H) (l : Ledger H) : Prop :=
  l.store.Solvent c.registry c.options.constructorPolicy
    (l.produced.filterMap c.registry.product?)

theorem Covers.products_sublist {resolved : List (Key × Instance H)} (h : l.Covers resolved)
    (registry : Registry H) :
    (resolved.filterMap registry.product?).Sublist (l.produced.filterMap registry.product?) := by
  obtain ⟨entries, hentries, hsublist⟩ := List.sublistForall₂_iff.mp h
  have hsame : resolved.filterMap registry.product? = entries.filterMap registry.product? := by
    clear h hsublist
    induction hentries with
    | nil => rfl
    | @cons result entry _ _ hhead _ ih =>
        obtain ⟨hkey, hobject⟩ := hhead
        have hproduct : registry.product? result = registry.product? entry := by
          rw [← Prod.eta result, ← Prod.eta entry, hobject, registry.product?_congr hkey]
        rw [List.filterMap_cons, List.filterMap_cons, hproduct, ih]
  exact hsame ▸ hsublist.filterMap registry.product?

namespace Solvent

theorem produce (h : l.Solvent c) (hl : l.Sound c) (hr : c.registry.Assembled)
    (hfits : c.PlansFit) {issue : Issue H} (hissue : issue ∈ l.issued) :
    Action.Ends
      (fun object t => Solvent c { l with
        store := t, produced := l.produced ++ [(issue.key, object)] })
      (fun _ t => Solvent c { l with store := t })
      (issue.factory.produce l.store) := by
  obtain ⟨r, hroot, -, -, hproduce⟩ :=
    hl.produce_eq hr hissue (hfits _ _ (hl.compiled issue hissue).1)
  have hexchanges : Exchanges c.registry c.options.constructorPolicy [] _ _ :=
    Registry.produce_exchanges hr (Registry.Coherent.mem_of_find? hroot) issue.factory.number
  have hsolvent : l.store.Solvent c.registry c.options.constructorPolicy
      (l.produced.filterMap c.registry.product? ++ []) := (List.append_nil _).symm ▸ h
  rw [hproduce]
  refine (hexchanges l.store _ hsolvent).mono ?_ (fun _ _ ht => ht)
  intro object t ht
  have hown : c.registry.product? (issue.key, object) = r.product? object := by
    simp [Registry.product?, hroot]
  unfold Solvent
  rw [List.filterMap_append]
  cases hproduct : r.product? object <;> simpa [hown, hproduct] using ht

theorem step (h : l.Solvent c) (hl : l.Sound c) (hr : c.registry.Assembled) (hfits : c.PlansFit)
    (hstep : Step c l m) : m.Solvent c := by
  cases hstep with
  | chatter hchatter =>
      exact Store.Solvent.silent h hchatter.cells hchatter.nextSerial hchatter.journal
  | issue _ hcompile =>
      obtain ⟨program, -, -, rfl⟩ := Factory.of_compile_eq_ok hcompile
      exact Store.Solvent.silent h rfl (Nat.le_refl _)
        ⟨[.remark _], by simp [Entry.call?], Store.journal_enter _ _⟩
  | produce hissue hproduce =>
      have hends := h.produce hl hr hfits hissue
      rwa [hproduce] at hends
  | fail hissue hproduce =>
      have hends := h.produce hl hr hfits hissue
      rwa [hproduce] at hends

theorem steps (h : l.Solvent c) (hl : l.Sound c) (hr : c.registry.Assembled) (hfits : c.PlansFit)
    (hsteps : Steps c l m) : m.Solvent c := by
  induction hsteps with
  | refl => exact h
  | tail hsteps hstep ih => exact ih.step (hl.steps hr hsteps) hr hfits hstep

end Solvent

end Ledger

theorem Builder.ledger_solvent {b : Builder H} (hb : b.Made) (world : H.World)
    (hash : List Datum → UInt64) : (b.ledger world hash).Solvent b.container := by
  have hempty : Store.Balanced b.container.registry b.container.options.constructorPolicy [] []
      (.start world (.ofRegistrations b.container.registry.ordered) #[]) := by
    refine ⟨.nil, .refl _, ?_, fun _ => ⟨.nil, List.forall_mem_nil _⟩⟩
    intro r hr hnone cell object hcell hobject
    have hgiven := hb.given_of_cell hr hcell hobject
    rw [hnone] at hgiven
    cases hgiven
  exact ⟨[], hempty.silent rfl (Nat.le_refl _)
    ⟨_, b.silent_ledger world hash, (List.nil_append _).symm⟩⟩

/-- Everything that was delivered in a session: the arguments of constructors and the results of
resolutions, each under the key that it was delivered for. -/
def Session.deliveries (q : Session H) : List (Key × Instance H) :=
  q.store.journal.toList.flatMap Entry.deliveries ++ q.resolved

theorem Origin.serial?_eq_some_iff {origin : Origin} {serial : Nat} :
    origin.serial? = some serial ↔ origin = .built serial := by
  cases origin <;> simp [serial?]

theorem Product.eq_of_serial {made : List (Product H)} (hordered : (serials made).Pairwise (· < ·))
    {serial : Nat} : ∀ a ∈ made, ∀ b ∈ made, a.origin = .built serial → b.origin = .built serial →
      a = b := by
  have hpairs := List.pairwise_filterMap.mp hordered
  refine List.Pairwise.forall_of_forall_of_flip (fun _ _ _ _ => rfl) ?_ ?_
  · apply hpairs.imp
    intro a b hlt ha hb
    exact absurd (hlt _ (Origin.serial?_eq_some_iff.mpr ha) _ (Origin.serial?_eq_some_iff.mpr hb))
      (Nat.lt_irrefl _)
  · apply hpairs.imp
    intro a b hlt hb ha
    exact absurd (hlt _ (Origin.serial?_eq_some_iff.mpr ha) _ (Origin.serial?_eq_some_iff.mpr hb))
      (Nat.lt_irrefl _)

namespace Session.Reachable

variable {c : Container H} {q : Session H}

theorem exists_solvent (h : q.Reachable c) (hfits : c.PlansFit) :
    ∃ l : Ledger H, l.Accounts c q ∧ l.Solvent c := by
  have hr := h.assembled
  obtain ⟨b, world, hash, l, hb, rfl, hsteps, haccounts⟩ := h.exists_steps
  exact ⟨l, haccounts, (Builder.ledger_solvent hb world hash).steps (b.ledger_sound world hash) hr
    hfits hsteps⟩

theorem balanced (h : q.Reachable c) (hfits : c.PlansFit) :
    ∃ made, q.store.Balanced c.registry c.options.constructorPolicy made
      (q.resolved.filterMap c.registry.product?) := by
  obtain ⟨l, haccounts, made, hmade⟩ := h.exists_solvent hfits
  rw [haccounts.state.store] at hmade
  exact ⟨made, hmade.release (haccounts.covered.products_sublist c.registry).subperm⟩

theorem cell_of_given (h : q.Reachable c) (hfits : c.PlansFit) {r : Registration H}
    (hr : r ∈ c.registry.toList) {object : Instance H} (hgiven : r.givenInstance = some object) :
    q.store.cells.get? r.sequence = some object := by
  obtain ⟨l, haccounts, -, hlawful⟩ := h.exists_lawful hfits
  have hstore : l.store = q.store := haccounts.state.store
  exact hstore ▸ hlawful.store.given r hr object hgiven

end Session.Reachable

namespace Sample

end Sample

end Wiring
