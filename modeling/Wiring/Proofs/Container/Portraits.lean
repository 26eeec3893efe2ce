import Wiring.Proofs.Container.Singletons
import Wiring.Proofs.Injection.Portraits

namespace Wiring

variable {H : Host} {D : Type} {R : Reading H D}

namespace Registry

variable {registry : Registry H} {policy : ConstructorPolicy} {r : Registration H} {d : D}

theorem prepare_bears (hR : R.Truthful registry) (hr : registry.Assembled)
    (hmem : r ∈ registry.toList)
    (hportrait : R.portrait registry policy registry.size r = some d) (number : Nat) :
    R.Bears registry policy (registry.prepare policy number r) fun _ _ => True := by
  intro s hs
  by_cases hprepared : number ∈ s.initialized
  · rw [prepare_of_mem hprepared]
    exact ⟨.refl hs, trivial⟩
  · rw [prepare_of_not_mem hprepared]
    refine (fillAll_bears hR hr hmem hportrait s hs).bind ?_
    rintro - t ⟨ht, -⟩
    refine ⟨⟨?_, ht.journal⟩, trivial⟩
    exact ht.portrayed.silent hR rfl (Nat.le_refl _) ⟨[], List.forall_mem_nil _, by simp⟩

theorem produce_bears (hR : R.Truthful registry) (hr : registry.Assembled)
    (hmem : r ∈ registry.toList)
    (hportrait : R.portrait registry policy registry.size r = some d) (number : Nat) :
    R.Bears registry policy (registry.produce policy number r) (R.Shows · · d) := by
  intro s hs
  refine (prepare_bears hR hr hmem hportrait number s hs).bind ?_
  rintro - t ⟨ht, -⟩
  exact (evaluate_bears hR hmem hportrait t ht.portrayed).mono
    (fun object u h => ⟨ht.trans h.1, h.2⟩) (fun e u h => ht.trans h)

end Registry

namespace Container

def prospect (c : Container H) (R : Reading H D) (key : Key) : Option D :=
  (c.registry.find? key).bind
    (R.portrait c.registry c.options.constructorPolicy c.registry.size)

variable {c : Container H} {key other : Key}

theorem prospect_eq_some_iff {d : D} :
    c.prospect R key = some d ↔ ∃ r, c.registry.find? key = some r ∧
      R.portrait c.registry c.options.constructorPolicy c.registry.size r = some d :=
  Option.bind_eq_some_iff

theorem prospect_congr (hkey : (key == other) = true) :
    c.prospect R key = c.prospect R other := by
  rw [prospect, c.registry.find?_congr hkey, prospect]

/-- Something was delivered for the key as the registry says: the key can be planned, and the instance
fits the portrait of its registration. -/
def Presents (c : Container H) (R : Reading H D) (journal : Journal H) (key : Key)
    (object : Instance H) : Prop :=
  ∃ plan d, (c.registry.plan c.options key).result = .ok plan ∧ c.prospect R key = some d ∧
    R.Shows journal object d

theorem Presents.congr {journal : Journal H} {object : Instance H}
    (h : c.Presents R journal key object) (hkey : (key == other) = true) :
    c.Presents R journal other object := by
  obtain ⟨plan, d, hplan, hprospect, hobject⟩ := h
  exact ⟨plan, d, Registry.plan_congr hkey hplan, prospect_congr hkey ▸ hprospect, hobject⟩

end Container

namespace Ledger

variable {c : Container H} {l m : Ledger H}

/-- The store is as the registry says, and so is everything that was ever produced. -/
structure Portrayed (R : Reading H D) (c : Container H) (l : Ledger H) : Prop where
  store : l.store.Portrayed R c.registry c.options.constructorPolicy
  produced : ∀ entry ∈ l.produced, c.Presents R l.store.journal entry.1 entry.2

namespace Portrayed

theorem advance {t : Store H} {issued : List (Issue H)} (hR : R.Truthful c.registry)
    (h : l.Portrayed R c)
    (ht : R.Advances c.registry c.options.constructorPolicy l.store t) :
    Portrayed R c ⟨t, issued, l.produced⟩ := by
  refine ⟨ht.portrayed, fun entry hentry => ?_⟩
  obtain ⟨plan, d, hplan, hprospect, hobject⟩ := h.produced entry hentry
  exact ⟨plan, d, hplan, hprospect, hR.keeps ht.journal hobject⟩

theorem produce (hR : R.Truthful c.registry) (h : l.Portrayed R c) (hl : l.Sound c)
    (hr : c.registry.Assembled) (hfits : c.PlansFit) {issue : Issue H} (hissue : issue ∈ l.issued) :
    Action.Ends
      (fun object t => Portrayed R c ⟨t, l.issued, l.produced ++ [(issue.key, object)]⟩)
      (fun _ t => Portrayed R c ⟨t, l.issued, l.produced⟩)
      (issue.factory.produce l.store) := by
  have hplan := (hl.compiled issue hissue).1
  obtain ⟨r, hroot, hbuildable, -, hproduce⟩ := hl.produce_eq hr hissue (hfits _ _ hplan)
  obtain ⟨d, hportrait⟩ := R.exists_portrait hbuildable
  rw [hproduce]
  refine (Registry.produce_bears hR hr (Registry.Coherent.mem_of_find? hroot) hportrait
    issue.factory.number l.store h.store).mono ?_ (fun _ _ ht => h.advance hR ht)
  rintro object t ⟨ht, hobject⟩
  have hbefore : Portrayed R c ⟨t, l.issued, l.produced⟩ := h.advance hR ht
  refine ⟨ht.portrayed, List.forall_mem_append.mpr ⟨hbefore.produced, ?_⟩⟩
  exact List.forall_mem_singleton.mpr
    ⟨issue.plan, d, hplan, Container.prospect_eq_some_iff.mpr ⟨r, hroot, hportrait⟩, hobject⟩

theorem step (hR : R.Truthful c.registry) (h : l.Portrayed R c) (hl : l.Sound c)
    (hr : c.registry.Assembled) (hfits : c.PlansFit) (hstep : Step c l m) : m.Portrayed R c := by
  cases hstep with
  | chatter hchatter =>
      obtain ⟨entries, -, hentries⟩ := hchatter.journal
      exact h.advance hR ⟨h.store.silent hR hchatter.cells hchatter.nextSerial hchatter.journal,
        entries, hentries.symm⟩
  | issue _ hcompile =>
      obtain ⟨program, -, -, rfl⟩ := Factory.of_compile_eq_ok hcompile
      have hjournal := Store.journal_enter
        ({ l.store with nextFactory := l.store.nextFactory + 1 } : Store H)
      refine h.advance hR ⟨h.store.silent hR rfl (Nat.le_refl _) ⟨[.remark _], ?_, hjournal _⟩, ?_⟩
      · exact List.forall_mem_singleton.mpr rfl
      · exact ⟨_, (hjournal _).symm⟩
  | produce hissue hproduce =>
      have hends := h.produce hR hl hr hfits hissue
      rwa [hproduce] at hends
  | fail hissue hproduce =>
      have hends := h.produce hR hl hr hfits hissue
      rwa [hproduce] at hends

theorem steps (hR : R.Truthful c.registry) (h : l.Portrayed R c) (hl : l.Sound c)
    (hr : c.registry.Assembled) (hfits : c.PlansFit) (hsteps : Steps c l m) :
    m.Portrayed R c := by
  induction hsteps with
  | refl => exact h
  | tail hsteps hstep ih => exact ih.step hR (hl.steps hr hsteps) hr hfits hstep

end Portrayed

end Ledger

theorem Reading.Truthful.shows_given {registry : Registry H} {policy : ConstructorPolicy}
    (hR : R.Truthful registry) {r : Registration H} (hmem : r ∈ registry.toList)
    {object : Instance H} (hgiven : r.givenInstance = some object) {depth : Nat} {d : D}
    (hportrait : R.portrait registry policy depth r = some d) (journal : Journal H) :
    R.Shows journal object d := by
  obtain ⟨key, provision, sequence⟩ := r
  cases provision with
  | construct => cases hgiven
  | given found =>
      cases hgiven
      cases depth with
      | zero => cases hportrait
      | succ depth =>
          obtain ⟨chosen, pictures, hchosen, -, rfl⟩ := portrait_succ_eq_some_iff.mp hportrait
          have hmade : policy.choose? [Constructor.ofInstance object] = some chosen := hchosen
          rw [ConstructorPolicy.choose?_singleton, Option.some.injEq] at hmade
          subst hmade
          exact hR.handedOut hmem (List.mem_singleton_self _) rfl journal pictures

theorem Builder.ledger_portrayed {b : Builder H} (hR : R.Truthful b.container.registry)
    (hb : b.Made) (world : H.World) (hash : List Datum → UInt64) :
    (b.ledger world hash).Portrayed R b.container := by
  have hempty : Store.Portrayed R b.container.registry b.container.options.constructorPolicy
      (.start world (.ofRegistrations b.container.registry.ordered) #[]) := by
    refine ⟨?_, ?_, ?_⟩
    · intro call object hcall
      cases hcall
    · intro r hr cell object hcell hobject depth d hportrait
      exact hR.shows_given hr (hb.given_of_cell hr hcell hobject) hportrait _
    · intro call hcall
      cases hcall
  refine ⟨hempty.silent hR rfl (Nat.le_refl _) ⟨_, b.silent_ledger world hash, ?_⟩,
    List.forall_mem_nil _⟩
  exact (List.nil_append _).symm

namespace Session.Reachable

variable {c : Container H} {q : Session H}

theorem portrayed (h : q.Reachable c) (hfits : c.PlansFit) (hR : R.Truthful c.registry) :
    q.store.Portrayed R c.registry c.options.constructorPolicy ∧
      ∀ key object, (key, object) ∈ q.resolved → c.Presents R q.store.journal key object := by
  have hr := h.assembled
  obtain ⟨b, world, hash, l, hb, rfl, hsteps, haccounts⟩ := h.exists_steps
  have hl := (Builder.ledger_portrayed hR hb world hash).steps hR (b.ledger_sound world hash) hr
    hfits hsteps
  have hstore : l.store = q.store := haccounts.state.store
  refine ⟨hstore ▸ hl.store, fun key object hobject => ?_⟩
  obtain ⟨other, hkey, hproduced⟩ := haccounts.resolved _ hobject
  exact hstore ▸ (hl.produced _ hproduced).congr hkey

/-- A key resolves to what the registry says. -/
theorem presents_of_resolve (h : q.Reachable c) (hfits : c.PlansFit) (hR : R.Truthful c.registry)
    {key : Key} {object : Instance H} {s : ContainerState H}
    (hresolve : c.resolve key q.state = .ok object s) :
    c.Presents R s.store.journal key object := by
  have hpresents := ((h.serve (.resolve key)).portrayed hfits hR).2 key object
  rw [serve_of_resolve_eq_ok hresolve] at hpresents
  exact hpresents (mem_keepResolved _ key object)

theorem presents_of_resolveAll (h : q.Reachable c) (hfits : c.PlansFit)
    (hR : R.Truthful c.registry) {key : Key} {objects : List (Instance H)}
    {s : ContainerState H} (hresolve : c.resolveAll key q.state = .ok objects s) :
    List.Forall₂ (fun r object => c.Presents R s.store.journal r.key object)
      (c.registry.ofService key) objects := by
  refine List.forall₂_iff_zip.mpr
    ⟨(Action.length_of_mapM_eq_ok hresolve).symm, fun {r object} hmem => ?_⟩
  have hpresents := ((h.serve (.resolveAll key)).portrayed hfits hR).2 r.key object
  simp only [Session.serve, after, hresolve, keepAllResolved] at hpresents
  refine hpresents (List.mem_append_right _ ?_)
  rw [List.zip_map_left]
  exact List.mem_map.mpr ⟨(r, object), hmem, rfl⟩

end Session.Reachable

end Wiring
