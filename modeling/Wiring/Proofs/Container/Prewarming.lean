import Wiring.Proofs.Container.Warm
import Wiring.Proofs.Factory.Steps

namespace Wiring

variable {H : Host}

/-- From `s` to `t` no cell has been filled and no client code has been called. -/
structure Store.Idle (s t : Store H) : Prop where
  cells : t.cells = s.cells
  journal : ∃ entries, (∀ entry ∈ entries, entry.call? = none) ∧
    t.journal.toList = s.journal.toList ++ entries

namespace Store

instance : Std.Refl (Idle (H := H)) := ⟨fun _ => ⟨rfl, [], List.forall_mem_nil _, by simp⟩⟩

instance : IsTrans (Store H) Idle := ⟨by
  rintro s t u ⟨hst, first, hfirst, hs⟩ ⟨htu, second, hsecond, ht⟩
  exact ⟨htu.trans hst, first ++ second, List.forall_mem_append.mpr ⟨hfirst, hsecond⟩,
    by simp [ht, hs]⟩⟩

theorem Chatter.idle {s t : Store H} (h : s.Chatter t) : s.Idle t :=
  ⟨h.cells, h.journal⟩

theorem Idle.calls_eq {s t : Store H} (h : s.Idle t) : t.journal.calls = s.journal.calls :=
  Journal.calls_of_silent h.journal

end Store

namespace Container

variable (c : Container H) (key : Key) (s : ContainerState H)

theorem factory_idle : s.store.Idle (Action.finalState (c.factory key s)).store := by
  have hquiet := leads_compileQuietly (R := Store.Idle)
    (fun s record => (s.chatter_log record).idle)
    (fun _ _ => ⟨rfl, [], List.forall_mem_nil _, by simp⟩) c key
    { s with cache := s.cache.reserve key }
  have hobtains := c.factory_obtains key s
  generalize c.factory key s = result at hobtains ⊢
  cases hobtains with
  | unknown => exact refl_of Store.Idle s.store
  | stored => exact refl_of Store.Idle s.store
  | compiled _ _ hcompile =>
      rw [hcompile] at hquiet
      exact trans_of Store.Idle hquiet (c.chatter_reportReady key _ _).idle
  | failed _ _ hcompile =>
      rw [hcompile] at hquiet
      exact trans_of Store.Idle hquiet (c.chatter_reportFailed key _ _).idle

theorem factory_ends :
    Action.Ends
      (fun f t => t.cache.compilations =
          s.cache.compilations + (if (s.cache.get? key).isNone then 1 else 0) ∧
        ∀ other, t.cache.get? other = if key == other then some f else s.cache.get? other)
      (fun _ t => ∀ other, t.cache.get? other = s.cache.get? other)
      (c.factory key s) := by
  have hobtains := c.factory_obtains key s
  generalize c.factory key s = result at hobtains ⊢
  cases hobtains with
  | unknown => exact fun _ => rfl
  | stored hstored =>
      refine ⟨by simp [hstored], fun other => ?_⟩
      split
      next hkey => rw [← hstored, FactoryCache.get?, FactoryCache.get?, s.cache.cell?_congr hkey]
      next => rfl
  | @compiled f t _ hmissing _ =>
      refine ⟨?_, fun other => s.cache.get?_fill_reserve key other f⟩
      change (s.cache.reserve key).compilations + 1 = _
      simp [FactoryCache.compilations_reserve, hmissing]
  | failed => exact s.cache.get?_reserve key

end Container

theorem Registry.Assembled.ordered_apart {registry : Registry H} (hr : registry.Assembled) :
    registry.ordered.Pairwise fun a b => (a.key == b.key) = false := by
  have hnodup : registry.ordered.Nodup := (sorted_perm _ _).nodup_iff.mpr hr.coherent.nodup_toList
  refine hnodup.imp_of_mem fun {a b} ha hb hne => ?_
  rw [Bool.eq_false_iff]
  intro hkey
  have hfirst := hr.find?_eq_some_iff.mpr ⟨Registry.mem_ordered.mp ha, hkey⟩
  have hsecond := hr.find?_eq_some_iff.mpr ⟨Registry.mem_ordered.mp hb, BEq.rfl⟩
  exact hne (Option.some.inj (hfirst.symm.trans hsecond))

/-- The key of the registration has a factory, and if it is a singleton, it has been built. -/
structure Registration.Done (r : Registration H) (s : ContainerState H) : Prop where
  compiled : (s.cache.get? r.key).isSome = true
  built : ∀ cell, r.cell? = some cell → (s.store.cells.get? cell).isSome = true

namespace Container

/-- The registration is needed for some singleton, or is one. -/
def ServesSingleton (c : Container H) (d : Registration H) : Prop :=
  ∃ r ∈ c.registry.toList, r.lifetime = .singleton ∧
    c.registry.Reaches c.options.constructorPolicy r d

/-- From `s` to `t` factories and instances are kept, and client code is called for the sake of
singletons only. -/
structure Goes (c : Container H) (s t : ContainerState H) : Prop where
  stays : ∀ key, (s.cache.get? key).isSome = true → (t.cache.get? key).isSome = true
  keeps : s.store.cells.Keeps t.store.cells
  builds : Store.BuildsOnly c.registry c.options.constructorPolicy c.ServesSingleton s.store t.store

variable {c : Container H} {s t : ContainerState H} {r : Registration H}

instance : Std.Refl c.Goes := ⟨fun _ => ⟨fun _ h => h, .refl _, refl_of _ _⟩⟩

instance : IsTrans (ContainerState H) c.Goes := ⟨fun _ _ _ hst htu =>
  ⟨fun key h => htu.stays key (hst.stays key h), hst.keeps.trans htu.keeps,
    trans_of _ hst.builds htu.builds⟩⟩

theorem Goes.done (hst : c.Goes s t) (h : r.Done s) : r.Done t where
  compiled := hst.stays r.key h.compiled
  built cell hcell := by
    obtain ⟨object, hobject⟩ := Option.isSome_iff_exists.mp (h.built cell hcell)
    rw [hst.keeps cell object hobject]
    rfl

/-- The registration fails in its turn: it cannot be compiled, or it is a singleton and cannot be
built. -/
def FailsAt (c : Container H) (r : Registration H) (s : ContainerState H) (e : Failure)
    (t : ContainerState H) : Prop :=
  c.factory r.key s = .error e t ∨
    r.lifetime = .singleton ∧ ∃ factory mid, c.factory r.key s = .ok factory mid ∧
      Run.eval factory.produce mid = .error e t

theorem goes_factory (c : Container H) (key : Key) (s : ContainerState H) :
    c.Goes s (Action.finalState (c.factory key s)) where
  stays other hother := by
    have hends := c.factory_ends key s
    cases hresult : c.factory key s with
    | ok f t =>
        rw [hresult] at hends
        change (t.cache.get? other).isSome = true
        rw [hends.2 other]
        split
        · rfl
        · exact hother
    | error e t =>
        rw [hresult] at hends
        change (t.cache.get? other).isSome = true
        rw [hends other]
        exact hother
  keeps := (c.factory_idle key s).cells ▸ .refl _
  builds := .of_silent (c.factory_idle key s).journal

theorem goes_produce {l : Ledger H} (hl : l.Sound c) (hr : c.registry.Assembled)
    (hfits : c.PlansFit) (hs : l.Tracks s) {issue : Issue H} (hissue : issue ∈ l.issued)
    (hroot : c.registry.find? issue.key = some r) (hlifetime : r.lifetime = .singleton) :
    Action.Ends
      (fun _ t => (t.Kept c ∧ c.Goes s t) ∧ t.cache = s.cache ∧
        ∀ cell, r.cell? = some cell → (t.store.cells.get? cell).isSome = true)
      (fun _ t => c.Goes s t ∧ t.cache = s.cache) (Run.eval issue.factory.produce s) := by
  obtain ⟨d, hd, hends⟩ := hl.produce_ends hr hissue (hfits _ _ (hl.compiled issue hissue).1)
  obtain ⟨e, he, hbuilds⟩ := hl.builds hr hfits hissue
  rw [hroot, Option.some.injEq] at hd he
  subst hd he
  have hlater := hl.produce_laterBy hissue
  have hsound := hl.produce hr hissue []
  rw [hs.store] at hends hbuilds hlater hsound
  have hgoes : ∀ t, Action.finalState (issue.factory.produce s.store) = t →
      c.Goes s { s with store := t } := by
    rintro t rfl
    exact ⟨fun _ h => h, hlater.keeps, hbuilds.mono fun d hreaches =>
      ⟨r, Registry.Coherent.mem_of_find? hroot, hlifetime, hreaches⟩⟩
  unfold Run.eval
  cases hproduce : issue.factory.produce s.store with
  | ok object t =>
      rw [hproduce] at hends hgoes hsound
      have hkept : ContainerState.Kept c { s with store := t } :=
        ⟨⟨t, l.issued, []⟩, ⟨rfl, hs.cached⟩, hsound⟩
      exact ⟨⟨hkept, hgoes t rfl⟩, rfl, fun cell hcell =>
        Option.isSome_of_mem (hends.2 cell hcell)⟩
  | error e t =>
      rw [hproduce] at hgoes
      exact ⟨hgoes t rfl, rfl⟩

theorem prewarmOne_ends (hr : c.registry.Assembled) (hfits : c.PlansFit)
    (hmem : r ∈ c.registry.toList) (hs : s.Kept c) :
    Action.Ends
      (fun _ t => (t.Kept c ∧ c.Goes s t) ∧ r.Done t ∧
        t.cache.compilations =
          s.cache.compilations + (if (s.cache.get? r.key).isNone then 1 else 0) ∧
        ∀ other, (r.key == other) = false → t.cache.get? other = s.cache.get? other)
      (fun e t => c.Goes s t ∧ c.FailsAt r s e t ∧
        ∀ other, (r.key == other) = false → t.cache.get? other = s.cache.get? other)
      (c.prewarmOne r s) := by
  obtain ⟨l, htracks, hl⟩ := hs
  have haccounted := c.factory_accounted r.key s l htracks trivial
  have hends := c.factory_ends r.key s
  have hgoes := c.goes_factory r.key s
  unfold prewarmOne
  cases hfactory : c.factory r.key s with
  | error e t =>
      rw [hfactory] at hends hgoes
      rw [Action.bind_of_error _ hfactory]
      exact ⟨hgoes, Or.inl hfactory, fun other _ => hends other⟩
  | ok f mid =>
      rw [hfactory] at haccounted hends hgoes
      obtain ⟨m, hsteps, hmid, issue, hissue, hkey, rfl⟩ := haccounted
      obtain ⟨hcount, hcache⟩ := hends
      have hm := hl.steps hr hsteps
      have hothers : ∀ other, (r.key == other) = false →
          mid.cache.get? other = s.cache.get? other := by
        intro other hother
        rw [hcache, hother]
        rfl
      have hcached : (mid.cache.get? r.key).isSome = true := by simp [hcache]
      rw [Action.bind_of_ok _ hfactory]
      by_cases hlifetime : r.lifetime = .singleton
      · have hroot : c.registry.find? issue.key = some r := by
          rw [c.registry.find?_congr hkey]
          exact hr.find?_eq_some_iff.mpr ⟨hmem, BEq.rfl⟩
        have hproduced := goes_produce hm hr hfits hmid hissue hroot hlifetime
        rw [if_pos hlifetime]
        cases hresult : Run.eval issue.factory.produce mid with
        | ok object t =>
            rw [hresult] at hproduced
            obtain ⟨⟨hkept, hgone⟩, hsame, hbuilt⟩ := hproduced
            rw [Action.discard_of_ok hresult]
            refine ⟨⟨hkept, trans_of _ hgoes hgone⟩, ⟨?_, hbuilt⟩, ?_, ?_⟩
            · rw [hsame]
              exact hcached
            · rw [hsame]
              exact hcount
            · rw [hsame]
              exact hothers
        | error e t =>
            rw [hresult] at hproduced
            obtain ⟨hgone, hsame⟩ := hproduced
            rw [Action.discard_of_error hresult]
            refine ⟨trans_of _ hgoes hgone,
              Or.inr ⟨hlifetime, issue.factory, mid, hfactory, hresult⟩, ?_⟩
            rw [hsame]
            exact hothers
      · rw [if_neg hlifetime]
        refine ⟨⟨⟨m, hmid, hm⟩, hgoes⟩, ⟨hcached, fun cell hcell => ?_⟩, hcount, hothers⟩
        exact absurd (Registration.cell?_eq_some_iff.mp hcell).1 hlifetime

theorem prewarmAll_ends (hr : c.registry.Assembled) (hfits : c.PlansFit)
    {elements : List (Registration H)} (hmem : ∀ r ∈ elements, r ∈ c.registry.toList)
    (hapart : elements.Pairwise fun a b => (a.key == b.key) = false) (hs : s.Kept c) :
    Action.Ends
      (fun _ t => (t.Kept c ∧ c.Goes s t) ∧ (∀ r ∈ elements, r.Done t) ∧
        t.cache.compilations =
          s.cache.compilations + elements.countP fun r => (s.cache.get? r.key).isNone)
      (fun e t => c.Goes s t ∧ ∃ earlier r later mid, elements = earlier ++ r :: later ∧
        earlier.forM c.prewarmOne s = .ok () mid ∧ c.FailsAt r mid e t ∧
        (∀ d ∈ earlier, d.Done t) ∧ ∀ d ∈ later, t.cache.get? d.key = s.cache.get? d.key)
      (elements.forM c.prewarmOne s) := by
  induction elements generalizing s with
  | nil => exact ⟨⟨hs, refl_of _ s⟩, List.forall_mem_nil _, rfl⟩
  | cons r rest ih =>
      have hfirst := prewarmOne_ends hr hfits (hmem r (by simp)) hs
      rw [List.pairwise_cons] at hapart
      rw [List.forM_eq_forM, List.forM_cons]
      cases hresult : c.prewarmOne r s with
      | error e t =>
          rw [hresult] at hfirst
          obtain ⟨hgoes, hfails, hothers⟩ := hfirst
          rw [Action.bind_of_error _ hresult]
          exact ⟨hgoes, [], r, rest, s, rfl, rfl, hfails, List.forall_mem_nil _,
            fun d hd => hothers d.key (hapart.1 d hd)⟩
      | ok _ mid =>
          rw [hresult] at hfirst
          obtain ⟨⟨hkept, hgoes⟩, hdone, hcount, hothers⟩ := hfirst
          rw [Action.bind_of_ok _ hresult]
          refine (ih (fun d hd => hmem d (by simp [hd])) hapart.2 hkept).mono ?_ ?_
          · rintro - t ⟨⟨hkept', hgoes'⟩, hrest, hcount'⟩
            refine ⟨⟨hkept', trans_of _ hgoes hgoes'⟩,
              List.forall_mem_cons.mpr ⟨hgoes'.done hdone, hrest⟩, ?_⟩
            -- The first turn has compiled nothing for the others, whose keys differ.
            have hsame : rest.countP (fun d => (mid.cache.get? d.key).isNone) =
                rest.countP fun d => (s.cache.get? d.key).isNone :=
              List.countP_congr fun d hd => by rw [hothers d.key (hapart.1 d hd)]
            rw [hcount', hcount, hsame, List.countP_cons]
            omega
          · rintro e t ⟨hgoes', earlier, d, later, last, rfl, hearlier, hfails, hall, hlater⟩
            refine ⟨trans_of _ hgoes hgoes', r :: earlier, d, later, last, rfl, ?_, hfails,
              List.forall_mem_cons.mpr ⟨hgoes'.done hdone, hall⟩, fun other hother => ?_⟩
            · exact (Action.bind_of_ok _ hresult).trans hearlier
            · rw [hlater other hother]
              exact hothers other.key (hapart.1 other (by simp [hother]))

/-- A container that has been prewarmed is warm. If a registration fails, those before it have had
their turns, and those after it have not. -/
theorem prewarm_ends (hr : c.registry.Assembled) (hfits : c.PlansFit) (hs : s.Kept c) :
    Action.Ends
      (fun n t => c.Goes s t ∧ c.Warm t ∧
        n = c.registry.toList.countP fun r => (s.cache.get? r.key).isNone)
      (fun e t => c.Goes s t ∧ ∃ earlier r later mid, c.registry.ordered = earlier ++ r :: later ∧
        earlier.forM c.prewarmOne s = .ok () mid ∧ c.FailsAt r mid e t ∧
        (∀ d ∈ earlier, d.Done t) ∧ ∀ d ∈ later, t.cache.get? d.key = s.cache.get? d.key)
      (c.prewarm s) := by
  have hperm : c.registry.ordered.Perm c.registry.toList := sorted_perm _ _
  have hall := prewarmAll_ends hr hfits (fun r hmem => Registry.mem_ordered.mp hmem)
    hr.ordered_apart hs
  unfold prewarm
  rw [Action.get_bind]
  cases hresult : c.registry.ordered.forM c.prewarmOne s with
  | error e t =>
      rw [hresult] at hall
      rw [Action.bind_of_error _ hresult]
      exact hall
  | ok _ mid =>
      rw [hresult] at hall
      obtain ⟨⟨-, hgoes⟩, hdone, hcount⟩ := hall
      rw [Action.bind_of_ok _ hresult]
      refine ⟨⟨hgoes.stays, hgoes.keeps, ?_⟩, ⟨fun key hkey => ?_, fun r hmem => ?_⟩, ?_⟩
      · exact trans_of _ hgoes.builds (.of_silent (mid.store.chatter_log _).journal)
      · obtain ⟨r, hroot⟩ := Option.isSome_iff_exists.mp hkey
        obtain ⟨hmem, hsame⟩ := hr.find?_eq_some_iff.mp hroot
        have hcached := (hdone r (Registry.mem_ordered.mpr hmem)).compiled
        rwa [FactoryCache.get?, mid.cache.cell?_congr hsame] at hcached
      · exact (hdone r (Registry.mem_ordered.mpr hmem)).built
      · rw [← hperm.countP_eq]
        omega

theorem Warm.prewarmOne_eq (hwarm : c.Warm s) (hs : s.Kept c) (hr : c.registry.Assembled)
    (hfits : c.PlansFit) (hmem : r ∈ c.registry.toList) :
    ∃ t, c.prewarmOne r s = .ok () t ∧ t.Kept c ∧ t.cache = s.cache ∧
      t.store.cells = s.store.cells ∧ t.store.journal = s.store.journal := by
  obtain ⟨factory, hfactory, hbuildable, number, hproduce⟩ :=
    hwarm.factory_eq hs hr hfits (hr.find?_eq_some_iff.mpr ⟨hmem, BEq.rfl⟩)
  have hends := prewarmOne_ends hr hfits hmem hs
  have hturn : ∃ t, c.prewarmOne r s = .ok () t ∧ t.cache = s.cache ∧
      t.store.cells = s.store.cells ∧ t.store.journal = s.store.journal := by
    unfold prewarmOne
    rw [Action.bind_of_ok _ hfactory]
    split
    next hlifetime =>
      have hcell := Registration.cell?_eq_some_iff.mpr ⟨hlifetime, rfl⟩
      obtain ⟨object, hobject⟩ := Option.isSome_iff_exists.mp (hwarm.built r hmem _ hcell)
      obtain ⟨t, ht, hcells, hjournal⟩ : ∃ t, c.registry.produce c.options.constructorPolicy number
          r s.store = .ok object t ∧ t.cells = s.store.cells ∧ t.journal = s.store.journal :=
        Registry.produce_of_filled hbuildable hcell hobject (hwarm.built.filled hmem)
      exact ⟨_, Action.discard_of_ok (Run.eval_of_ok (hproduce.trans ht)), rfl, hcells, hjournal⟩
    next => exact ⟨s, rfl, rfl, rfl, rfl⟩
  obtain ⟨t, hresult, hsame⟩ := hturn
  rw [hresult] at hends
  exact ⟨t, hresult, hends.1.1, hsame⟩

theorem Warm.prewarmAll_eq (hwarm : c.Warm s) (hs : s.Kept c) (hr : c.registry.Assembled)
    (hfits : c.PlansFit) {elements : List (Registration H)}
    (hmem : ∀ r ∈ elements, r ∈ c.registry.toList) :
    ∃ t, elements.forM c.prewarmOne s = .ok () t ∧ t.cache = s.cache ∧
      t.store.cells = s.store.cells ∧ t.store.journal = s.store.journal := by
  induction elements generalizing s with
  | nil => exact ⟨s, rfl, rfl, rfl, rfl⟩
  | cons r rest ih =>
      obtain ⟨mid, hfirst, hkept, hcache, hcells, hjournal⟩ :=
        hwarm.prewarmOne_eq hs hr hfits (hmem r (by simp))
      have hwarm' : c.Warm mid := ⟨hcache ▸ hwarm.compiled, hcells ▸ hwarm.built⟩
      obtain ⟨t, hrest, hcache', hcells', hjournal'⟩ :=
        ih hwarm' hkept fun d hd => hmem d (by simp [hd])
      exact ⟨t, (Action.bind_of_ok _ hfirst).trans hrest, hcache'.trans hcache,
        hcells'.trans hcells, hjournal'.trans hjournal⟩

theorem Warm.prewarm_eq (hwarm : c.Warm s) (hs : s.Kept c) (hr : c.registry.Assembled)
    (hfits : c.PlansFit) :
    ∃ t, c.prewarm s = .ok 0 t ∧ t.cache = s.cache ∧ t.store.cells = s.store.cells ∧
      t.store.journal = s.store.journal.push (.remark (.log (.prewarmed 0))) := by
  obtain ⟨t, hturns, hcache, hcells, hjournal⟩ :=
    hwarm.prewarmAll_eq hs hr hfits fun r hmem => Registry.mem_ordered.mp hmem
  unfold prewarm
  rw [Action.get_bind, Action.bind_of_ok _ hturns, Action.get_bind, hcache, Nat.sub_self]
  exact ⟨_, rfl, hcache, hcells, by rw [← hjournal]; rfl⟩

theorem prewarmOne_idle (c : Container H) (hlifetime : r.lifetime = .transient)
    (s : ContainerState H) : s.store.Idle (Action.finalState (c.prewarmOne r s)).store := by
  have hidle := c.factory_idle r.key s
  unfold prewarmOne
  cases hfactory : c.factory r.key s with
  | error e t =>
      rw [hfactory] at hidle
      rw [Action.bind_of_error _ hfactory]
      exact hidle
  | ok factory t =>
      rw [hfactory] at hidle
      rw [Action.bind_of_ok _ hfactory, if_neg (by simp [hlifetime])]
      exact hidle

end Container

namespace Session.Reachable

variable {c : Container H} {q : Session H}

/-- A program that goes on from a warm container compiles nothing and builds no singleton. Every
resolution takes the singletons from their cells, and prewarming again does nothing. -/
theorem warm_onwards (h : q.Reachable c) (hfits : c.PlansFit) (hwarm : c.Warm q.state)
    (requests : List (Request H)) :
    let p := q.run c requests
    p.state.cache.compilations = q.state.cache.compilations ∧
      (∀ key, p.state.cache.get? key = q.state.cache.get? key) ∧
      p.store.cells = q.store.cells ∧
      Store.BuildsOnly c.registry c.options.constructorPolicy (·.lifetime = .transient)
        q.store p.store ∧
      (∀ key r, c.registry.find? key = some r →
        ∃ factory memory, c.factory key p.state = .ok factory p.state ∧
          factory.produce p.store = c.registry.evaluate c.options.constructorPolicy
            c.registry.size r { p.store with initialized := memory }) ∧
      ∃ t, c.prewarm p.state = .ok 0 t ∧ t.cache = p.state.cache ∧
        t.store.cells = p.store.cells ∧
        t.store.journal = p.store.journal.push (.remark (.log (.prewarmed 0))) := by
  intro p
  have hp : p.Reachable c := h.run requests
  have hwarm' : c.Warm p.state := h.warm_run hfits hwarm requests
  have hcache := h.cache_run hwarm.compiled requests
  have hrests := h.rests_run hfits hwarm.built requests
  refine ⟨hcache.1, hcache.2, hrests.cells, hrests.builds, fun key r hroot => ?_,
    hwarm'.prewarm_eq hp.kept h.assembled hfits⟩
  obtain ⟨factory, hfactory, hbuildable, number, hproduce⟩ :=
    hwarm'.factory_eq hp.kept h.assembled hfits hroot
  obtain ⟨memory, hevaluate⟩ := Registry.produce_eq_evaluate hbuildable
    (hwarm'.built.filled (Registry.Coherent.mem_of_find? hroot)) number
  exact ⟨factory, memory, hfactory, hproduce.trans hevaluate⟩

/-- If prewarming succeeds, the container is warm and stays so, and it is said how many factories
there were to compile. If it fails, then at the first registration in the order of registration
whose turn fails; those before it are done, and for those after it nothing has been compiled. Either
way client code is called for the sake of singletons only, and in the turn of a transient not at
all. -/
theorem prewarm_complete_and_exact (h : q.Reachable c) (hfits : c.PlansFit) :
    (∀ n t, c.prewarm q.state = .ok n t →
      c.Warm t ∧
      n = c.registry.toList.countP (fun r => (q.state.cache.get? r.key).isNone) ∧
      ∀ requests,
        let p := (q.serve c .prewarm).run c requests
        p.state.cache.compilations = t.cache.compilations ∧
          (∀ key, p.state.cache.get? key = t.cache.get? key) ∧
          p.store.cells = t.store.cells ∧
          Store.BuildsOnly c.registry c.options.constructorPolicy (·.lifetime = .transient)
            t.store p.store ∧
          (∀ key r, c.registry.find? key = some r →
            ∃ factory memory, c.factory key p.state = .ok factory p.state ∧
              factory.produce p.store = c.registry.evaluate c.options.constructorPolicy
                c.registry.size r { p.store with initialized := memory }) ∧
          ∃ u, c.prewarm p.state = .ok 0 u ∧ u.cache = p.state.cache ∧
            u.store.cells = p.store.cells ∧
            u.store.journal = p.store.journal.push (.remark (.log (.prewarmed 0)))) ∧
    (∀ e t, c.prewarm q.state = .error e t →
      ∃ earlier r later mid, c.registry.ordered = earlier ++ r :: later ∧
        earlier.forM c.prewarmOne q.state = .ok () mid ∧ c.FailsAt r mid e t ∧
        (∀ d ∈ earlier, d.Done t) ∧
        ∀ d ∈ later, t.cache.get? d.key = q.state.cache.get? d.key) ∧
    Store.BuildsOnly c.registry c.options.constructorPolicy c.ServesSingleton q.store
      (Action.finalState (c.prewarm q.state)).store ∧
    ∀ (r : Registration H) (s : ContainerState H), r.lifetime = .transient →
      let t := (Action.finalState (c.prewarmOne r s)).store
      t.cells = s.store.cells ∧ t.journal.calls = s.store.journal.calls := by
  have hends := Container.prewarm_ends h.assembled hfits h.kept
  have hprewarmed : (q.serve c .prewarm).Reachable c := h.serve .prewarm
  refine ⟨fun n t hprewarm => ?_, fun e t hprewarm => ?_, ?_, fun r s hlifetime => ?_⟩
  · rw [hprewarm] at hends
    obtain ⟨-, hwarm, hcount⟩ := hends
    have hstate : (q.serve c .prewarm).state = t := by simp [Session.serve, after, hprewarm]
    subst hstate
    exact ⟨hwarm, hcount, fun requests => hprewarmed.warm_onwards hfits hwarm requests⟩
  · rw [hprewarm] at hends
    exact hends.2
  · cases hprewarm : c.prewarm q.state with
    | ok n t =>
        rw [hprewarm] at hends
        exact hends.1.builds
    | error e t =>
        rw [hprewarm] at hends
        exact hends.1.builds
  · have hidle := c.prewarmOne_idle hlifetime s
    exact ⟨hidle.cells, hidle.calls_eq⟩

end Session.Reachable

namespace Sample

open Wiring.Action (outcome)

def started : Session host :=
  builder.session 0 fun _ => 0

theorem started_reachable : started.Reachable container :=
  ⟨builder, _, _, [], made, rfl, rfl⟩

/-- Prewarming fails at the battery, the first registration. Prewarming once more finds the factory
of the battery, compiles the other four and leaves the container warm. -/
theorem battery_prewarmed : started.Reachable container ∧ container.PlansFit ∧
    (∃ e t, container.prewarm started.state = .error e t ∧
      ∃ earlier r later mid, container.registry.ordered = earlier ++ r :: later ∧
        earlier.forM container.prewarmOne started.state = .ok () mid ∧
        container.FailsAt r mid e t) ∧
    let again := started.serve container .prewarm
    ∃ t, container.prewarm again.state = .ok 4 t ∧ container.Warm t ∧
      ∀ requests, ((again.serve container .prewarm).run container requests).store.cells =
        t.store.cells := by
  have hfailure : (outcome (container.prewarm started.state)).toOption = none := by
    decide +kernel
  have hcount : (outcome (container.prewarm (started.serve container .prewarm).state)).toOption =
      some 4 := by
    decide +kernel
  refine ⟨started_reachable, plansFit, ?_, ?_⟩
  · cases hresult : container.prewarm started.state with
    | ok n t =>
        rw [hresult] at hfailure
        cases hfailure
    | error e t =>
        obtain ⟨earlier, r, later, mid, hordered, hearlier, hfails, -, -⟩ :=
          (started_reachable.prewarm_complete_and_exact plansFit).2.1 e t hresult
        exact ⟨e, t, rfl, earlier, r, later, mid, hordered, hearlier, hfails⟩
  · intro again
    cases hresult : container.prewarm again.state with
    | error e t =>
        rw [hresult] at hcount
        cases hcount
    | ok n t =>
        rw [hresult] at hcount
        cases hcount
        obtain ⟨hwarm, -, honwards⟩ :=
          ((started_reachable.serve .prewarm).prewarm_complete_and_exact plansFit).1 4 t hresult
        exact ⟨t, rfl, hwarm, fun requests => (honwards requests).2.2.1⟩

end Sample

end Wiring
