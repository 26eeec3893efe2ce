import Wiring.Proofs.Container.Services
import Wiring.Proofs.Container.Typing

namespace Wiring

variable {H : Host}

namespace ServiceType

def view : ServiceType → Instance H → Except Failure (Instance H)
  | .concrete type => Instance.expect type
  | .interface type => Instance.expectInterface type

theorem view_eq_ok_iff {S : ServiceType} {object found : Instance H} :
    S.view object = .ok found ↔ object.type.id = S.delivers.id ∧ found = object := by
  cases S with
  | concrete type => exact Instance.expect_eq_ok_iff
  | interface type => exact Instance.expectInterface_eq_ok_iff

end ServiceType

namespace Container

def ask (c : Container H) : ServiceType → Option String → Run H (Instance H)
  | .concrete type, name => c.get type name
  | .interface type, name => c.getInterface type name

def askAll (c : Container H) : ServiceType → Run H (List (Instance H))
  | .concrete type => c.getAll type
  | .interface type => c.getAllInterface type

theorem ask_eq (c : Container H) (S : ServiceType) (name : Option String) :
    c.ask S name = c.resolve (S.key name) >>= viewed S.view := by
  cases S <;> rfl

theorem askAll_eq (c : Container H) (S : ServiceType) :
    c.askAll S = c.resolveAll (S.key none) >>= fun objects => objects.mapM (viewed S.view) := by
  cases S <;> rfl

end Container

namespace Enrolment

variable {e : Enrolment H} {S T : ServiceType}

/-- What is supplied is of the type that it is registered as. Interfaces are presented by adapters,
which see to that. -/
def Honest : Enrolment H → Prop
  | .declared i _ _ => ∀ c ∈ i.constructors, c.makes.id = i.type.id
  | .listed i _ _ => ∀ c ∈ i.constructors, c.makes.id = i.type.id
  | _ => True

theorem honest_of_interface {interface : TypeTag} (h : e.serviceType = .interface interface) :
    e.Honest := by
  cases e with
  | presented => trivial
  | givenHandle => trivial
  | _ => cases h

theorem Honest.registration (h : e.Honest) (accepted : Nat) : (e.registration accepted).Honest := by
  have hgiven (object : Instance H) :
      ∀ c ∈ [Constructor.ofInstance object], c.makes.id = object.type.id := by
    simp [Constructor.makes, Constructor.ofInstance]
  cases e with
  | declared i lifetime name => exact fun _ => h
  | listed i lifetime name => exact fun _ => h
  | presented interface convert i lifetime name => rintro ⟨⟩
  | given type payload name => exact fun _ => hgiven _
  | givenHandle interface payload name => exact fun _ => hgiven _

theorem delivers_registration (e : Enrolment H) (accepted : Nat) :
    (e.registration accepted).delivers = e.serviceType.delivers := by
  cases e <;> rfl

theorem filter_concerns_of_toldApart (h : S.ToldApart T) (es : List (Enrolment H)) :
    (es.filter (·.serviceType ≠ T)).filter (·.concerns S) = es.filter (·.concerns S) := by
  rw [List.filter_filter]
  refine List.filter_congr fun e _ => ?_
  by_cases hconcerns : e.concerns S = true
  · have hother : e.serviceType ≠ T := fun heq => concerns_iff.mp hconcerns (heq ▸ h)
    simp [hconcerns, hother]
  · simp [hconcerns]

theorem filter_serviceType (S : ServiceType) (answered : List (Enrolment H × Except Failure Unit)) :
    (answered.filter (·.1.concerns S)).filter (·.1.serviceType = S) =
      answered.filter (·.1.serviceType = S) := by
  rw [List.filter_filter]
  refine List.filter_congr fun p _ => ?_
  by_cases hp : p.1.serviceType = S
  · simp [hp, concerns_of_serviceType hp]
  · simp [hp]

variable {b : Builder H} {c : Catalogue H}

theorem exists_of_sameService {options : Options} {es : List (Enrolment H)} {r : Registration H}
    {name : Option String}
    (hr : r ∈ (es.mapM attempt (.withOptions options)).2.container.registry.toList)
    (hservice : r.key.sameService (S.key name) = true) :
    ∃ e ∈ es, Stored r e ∧ ¬ S.ToldApart e.serviceType := by
  obtain ⟨e, he, -, accepted, rfl⟩ := mem_attemptAll_withCapacity (Registry.mem_toList_freeze.mp hr)
  refine ⟨e, he, ⟨accepted, rfl⟩, ?_⟩
  change e.key.sameService (S.key name) = true at hservice
  rw [key_eq] at hservice
  exact ServiceType.key_sameService_iff.mp hservice

theorem honest_of_sameService {options : Options} {es : List (Enrolment H)}
    (hsupplied : ∀ e ∈ es, ¬ S.ToldApart e.serviceType → e.serviceType = S ∧ e.Honest)
    {r : Registration H} {name : Option String}
    (hr : r ∈ (es.mapM attempt (.withOptions options)).2.container.registry.toList)
    (hservice : r.key.sameService (S.key name) = true) :
    r.Honest ∧ r.delivers.id = S.delivers.id := by
  obtain ⟨e, he, ⟨accepted, rfl⟩, hconfused⟩ := exists_of_sameService hr hservice
  obtain ⟨hS, hhonest⟩ := hsupplied e he hconfused
  exact ⟨hhonest.registration accepted, by rw [e.delivers_registration, hS]⟩

theorem find?_of_accepted (hb : b.registry.Shows c) (haccepted : (e.attempt b).1 = .ok ())
    {after : List (Enrolment H)}
    (hkept : ∀ p ∈ after.zip (after.mapM attempt (e.attempt b).2).1, (p.1.key == e.key) = true →
      p.2 ≠ .ok ()) :
    (after.mapM attempt (e.attempt b).2).2.container.registry.find? e.key =
      some (e.registration c.accepted) := by
  obtain ⟨hanswer, hshows, -⟩ := attempt_shows hb e
  obtain ⟨hanswers, hlast⟩ := attemptAll_shows hshows after
  rw [hanswers] at hkept
  refine (hlast.freeze.find?_eq e.key).trans (Catalogue.find?_of_kept ?_ hkept)
  rw [haccepted] at hanswer
  rcases Catalogue.attempt_cases b.options.registrationMode e c with ⟨failure, hrefused⟩ | hstored
  · rw [hrefused] at hanswer
    cases hanswer
  · rw [hstored, Catalogue.find?_accept, if_pos BEq.rfl]
    rfl

end Enrolment

namespace Registry

/-- Both registries have the same registrations of the service, but for the numbers. -/
structure AlikeFor (S : ServiceType) (registry other : Registry H) : Prop where
  find? : ∀ name, (registry.find? (S.key name)).map Registration.unnumbered =
    (other.find? (S.key name)).map Registration.unnumbered
  ofService : (registry.ofService (S.key none)).map Registration.unnumbered =
    (other.ofService (S.key none)).map Registration.unnumbered

theorem Shows.alikeFor {S : ServiceType} {registry other : Registry H} {c d : Catalogue H}
    (hregistry : registry.Shows c) (hother : other.Shows d) (h : c.Alike S d) :
    registry.AlikeFor S other where
  find? := by
    intro name
    rw [hregistry.find?_eq, hother.find?_eq]
    exact h.find? name
  ofService := by
    rw [hregistry.ofService_eq, hother.ofService_eq]
    exact h

/-- The registries have the very same registrations of the service. -/
structure SameFor (S : ServiceType) (registry other : Registry H) : Prop where
  find? : ∀ name, registry.find? (S.key name) = other.find? (S.key name)
  ofService : registry.ofService (S.key none) = other.ofService (S.key none)

theorem Shows.sameFor {S : ServiceType} {registry other : Registry H} {c d : Catalogue H}
    (hregistry : registry.Shows c) (hother : other.Shows d) (h : c.view S = d.view S) :
    registry.SameFor S other where
  find? := by
    intro name
    rw [hregistry.find?_eq, hother.find?_eq, Catalogue.find?_eq_view, Catalogue.find?_eq_view, h]
  ofService := by
    rw [hregistry.ofService_eq, hother.ofService_eq]
    exact h

end Registry

theorem Enrolment.attempt_of_toldApart {b : Builder H} {c : Catalogue H} {e : Enrolment H}
    {S : ServiceType} (hb : b.registry.Shows c) (he : S.ToldApart e.serviceType) :
    (e.attempt b).2.container.registry.SameFor S b.container.registry ∧
      ∀ f : Enrolment H, f.serviceType = S → (f.attempt (e.attempt b).2).1 = (f.attempt b).1 := by
  obtain ⟨-, hshows, hoptions⟩ := attempt_shows hb e
  have hview := Catalogue.view_attempt b.options.registrationMode
    (Bool.eq_false_iff.mpr fun hconcerns => concerns_iff.mp hconcerns he) c
  refine ⟨hshows.freeze.sameFor hb.freeze hview, fun f hf => ?_⟩
  have halike : Catalogue.Alike S (Catalogue.attempt b.options.registrationMode e c).2 c := by
    rw [Catalogue.Alike, hview]
  rw [(attempt_shows hshows f).1, (attempt_shows hb f).1, hoptions]
  exact (halike.attempt _ (concerns_of_serviceType hf)).1

namespace Session.Reachable

variable {c : Container H} {q : Session H} {S : ServiceType}

theorem ask_eq_resolve (h : q.Reachable c) (hfits : c.PlansFit) {name : Option String}
    (hsupplied : ∀ r, c.registry.find? (S.key name) = some r →
      r.Honest ∧ r.delivers.id = S.delivers.id) :
    c.ask S name q.state = c.resolve (S.key name) q.state := by
  rw [c.ask_eq]
  refine Container.bind_viewed fun object t hresolve => ?_
  obtain ⟨r, hfind, htype⟩ :=
    delivers_of_presents (h.presents_of_resolve hfits (typing_truthful c.registry) hresolve)
  obtain ⟨hhonest, hdelivers⟩ := hsupplied r hfind
  exact ServiceType.view_eq_ok_iff.mpr ⟨(htype hhonest).trans hdelivers, rfl⟩

theorem askAll_eq_resolveAll (h : q.Reachable c) (hfits : c.PlansFit)
    (hsupplied : ∀ r ∈ c.registry.ofService (S.key none),
      r.Honest ∧ r.delivers.id = S.delivers.id) :
    c.askAll S q.state = c.resolveAll (S.key none) q.state := by
  rw [c.askAll_eq]
  refine Container.bind_mapM_viewed fun objects t hresolve object hobject => ?_
  obtain ⟨r, hr, htype⟩ := h.delivers_of_resolveAll hfits hresolve object hobject
  obtain ⟨hhonest, hdelivers⟩ := hsupplied r hr
  exact ServiceType.view_eq_ok_iff.mpr ⟨(htype hhonest).trans hdelivers, rfl⟩

theorem exists_of_resolveAll_eq_error (h : q.Reachable c) {key : Key} {e : Failure}
    {t : ContainerState H} (hresolve : c.resolveAll key q.state = .error e t) :
    ∃ r ∈ c.registry.ofService key, ∃ p : Session H,
      p.Reachable c ∧ c.resolve r.key p.state = .error e t := by
  let Failing (e : Failure) (t : ContainerState H) : Prop :=
    ∃ r ∈ c.registry.ofService key, ∃ p : Session H,
      p.Reachable c ∧ c.resolve r.key p.state = .error e t
  have hstep : ∀ r ∈ c.registry.ofService key, ∀ s, (∃ p : Session H, p.Reachable c ∧ p.state = s) →
      Action.Ends (fun _ t => (∃ p : Session H, p.Reachable c ∧ p.state = t) ∧ True) Failing
        (c.resolve r.key s) := by
    rintro r hr _ ⟨p, hp, rfl⟩
    cases hresult : c.resolve r.key p.state with
    | ok object t =>
        refine ⟨⟨_, hp.serve (.resolve r.key), ?_⟩, trivial⟩
        rw [serve_of_resolve_eq_ok hresult]
        rfl
    | error e t => exact ⟨r, hr, p, hp, hresult⟩
  have hends := Action.Ends.mapM hstep ⟨q, h, rfl⟩
  change Action.Ends _ Failing (c.resolveAll key q.state) at hends
  rw [hresolve] at hends
  exact hends

end Session.Reachable

/-- Services that are told apart do not interfere. Whatever is registered, and in whichever order
and mode, take away all calls for the service `T`: the calls for `S` are answered as before, and
what is found for `S` is the same, up to the numbers of registrations. One more call for `T` leaves
even these, and the answer to every further call for `S`. All registrations of `S` come from calls
for other services than `T`, and asking for all of `S` fails only if one of these cannot be
resolved. If what can be confused with `S` is `S` itself and of its type, then asking for `S` by
type does what resolving by key does. And what a call for `S` has registered, and no later call has
replaced, is what asking for `S` under its name resolves to, as an instance of `S`. Calls for
interfaces are always honest. -/
theorem Builder.services_independent (options : Options) (es : List (Enrolment H))
    {S T : ServiceType} (hapart : S.ToldApart T) :
    let attempted := es.mapM Enrolment.attempt (.withOptions options)
    let others := es.filter (·.serviceType ≠ T)
    let spared := others.mapM Enrolment.attempt (.withOptions options)
    let c := attempted.2.container
    (es.zip attempted.1).filter (·.1.serviceType = S) =
      (others.zip spared.1).filter (·.1.serviceType = S) ∧
    c.registry.AlikeFor S spared.2.container.registry ∧
    (∀ e : Enrolment H, e.serviceType = T →
      (e.attempt attempted.2).2.container.registry.SameFor S c.registry ∧
      ∀ f : Enrolment H, f.serviceType = S →
        (f.attempt (e.attempt attempted.2).2).1 = (f.attempt attempted.2).1) ∧
    (∀ r ∈ c.registry.ofService (S.key none),
      ∃ e ∈ es, Enrolment.Stored r e ∧ e.serviceType ≠ T) ∧
    (∀ q : Session H, q.Reachable c → c.PlansFit →
      (∀ e ∈ es, ¬ S.ToldApart e.serviceType → e.serviceType = S ∧ e.Honest) →
      (∀ name, c.ask S name q.state = c.resolve (S.key name) q.state) ∧
      c.askAll S q.state = c.resolveAll (S.key none) q.state ∧
      ∀ failure t, c.askAll S q.state = .error failure t →
        ∃ r ∈ c.registry.ofService (S.key none), ∃ p : Session H,
          p.Reachable c ∧ c.resolve r.key p.state = .error failure t) ∧
    ∀ before e after, es = before ++ e :: after → e.serviceType = S →
      let met := (before.mapM Enrolment.attempt (.withOptions options)).2
      (e.attempt met).1 = .ok () →
      (∀ p ∈ after.zip (after.mapM Enrolment.attempt (e.attempt met).2).1,
        ¬ S.ToldApart p.1.serviceType → p.1.name = e.name → p.2 ≠ .ok ()) →
      ∃ accepted, c.registry.find? (S.key e.name) = some (e.registration accepted) ∧
        ∀ q : Session H, q.Reachable c → c.PlansFit →
          (e.Honest → c.ask S e.name q.state = c.resolve (S.key e.name) q.state) ∧
          ∀ {D : Type} (R : Reading H D), R.Truthful c.registry → ∀ object t,
            c.resolve (S.key e.name) q.state = .ok object t →
            ∃ d, R.portrait c.registry c.options.constructorPolicy c.registry.size
                (e.registration accepted) = some d ∧ R.Shows t.store.journal object d := by
  intro attempted others spared c
  have hshows : ∀ es : List (Enrolment H), _ := fun es =>
    Enrolment.attemptAll_shows (b := .withOptions options) (.withCapacity 16) es
  obtain ⟨hanswers, hlast⟩ := hshows es
  obtain ⟨hspared, hsparedLast⟩ := hshows others
  obtain ⟨hsame, halike⟩ := Catalogue.Alike.of_filter_eq options.registrationMode
    (Enrolment.filter_concerns_of_toldApart hapart es).symm .empty
  refine ⟨?_, hlast.freeze.alikeFor hsparedLast.freeze halike, ?_, ?_, ?_, ?_⟩
  · rw [← Enrolment.filter_serviceType, ← Enrolment.filter_serviceType S (others.zip _), hanswers,
      hspared]
    exact congrArg _ hsame
  · rintro e rfl
    exact Enrolment.attempt_of_toldApart hlast hapart
  · intro r hr
    obtain ⟨hmem, hservice⟩ := Registry.mem_ofService.mp hr
    obtain ⟨e, he, hstored, hconfused⟩ := Enrolment.exists_of_sameService hmem hservice
    exact ⟨e, he, hstored, fun heq => hconfused (heq ▸ hapart)⟩
  · intro q hq hfits hsupplied
    have hall := hq.askAll_eq_resolveAll (S := S) hfits fun r hr => by
      obtain ⟨hmem, hservice⟩ := Registry.mem_ofService.mp hr
      exact Enrolment.honest_of_sameService hsupplied hmem hservice
    refine ⟨fun name => hq.ask_eq_resolve hfits fun r hfind => ?_, hall, fun failure t hfails => ?_⟩
    · have hkey := hq.assembled.coherent.find?_key hfind
      exact Enrolment.honest_of_sameService hsupplied (Registry.Coherent.mem_of_find? hfind)
        (Key.sameService_iff.mpr (Key.beq_iff.mp hkey).1)
    · rw [hall] at hfails
      exact hq.exists_of_resolveAll_eq_error hfails
  · rintro before e after rfl rfl met haccepted hkept
    obtain ⟨-, hmet⟩ := hshows before
    have hrest : attempted.2 = (after.mapM Enrolment.attempt (e.attempt met).2).2 := by
      simp only [attempted, List.mapM_append, List.mapM_cons]
      rfl
    have hfind := Enrolment.find?_of_accepted hmet haccepted fun p hp hkey => by
      rw [p.1.key_eq, e.key_eq] at hkey
      obtain ⟨hconfused, hname⟩ := ServiceType.key_beq_iff.mp hkey
      exact hkept p hp hconfused hname
    rw [← hrest, e.key_eq] at hfind
    refine ⟨_, hfind, fun q hq hfits => ⟨fun hhonest => ?_, fun R hR object t hresolve => ?_⟩⟩
    · refine hq.ask_eq_resolve hfits fun r hr => ?_
      obtain rfl := Option.some.inj (hfind.symm.trans hr)
      exact ⟨hhonest.registration _, by rw [e.delivers_registration]⟩
    · obtain ⟨-, d, -, hprospect, hobject⟩ := hq.presents_of_resolve hfits hR hresolve
      obtain ⟨r, hr, hportrait⟩ := Container.prospect_eq_some_iff.mp hprospect
      obtain rfl := Option.some.inj (hfind.symm.trans hr)
      exact ⟨d, hportrait, hobject⟩

namespace Sample

/-- Without the lamps the same is registered as a vehicle, and it can be asked for by its type. -/
theorem vehicle_independent_of_lamps :
    (ServiceType.interface vehicle).ToldApart (.concrete lamp) ∧
      session.Reachable container ∧ container.PlansFit ∧
      container.registry.AlikeFor (.interface vehicle)
        ((enrolments.filter (·.serviceType ≠ .concrete lamp)).mapM Enrolment.attempt
          (.withOptions {})).2.container.registry ∧
      (∃ accepted, container.registry.find? root =
        some ((Enrolment.presented vehicle convert cars .transient none).registration accepted)) ∧
      container.getInterface vehicle none session.state = container.resolve root session.state := by
  have hapart : (ServiceType.interface vehicle).ToldApart (.concrete lamp) := trivial
  have hcontainer : (enrolments.mapM Enrolment.attempt (.withOptions {})).2.container = container :=
    rfl
  obtain ⟨-, halike, -, -, -, hregistered⟩ := Builder.services_independent {} enrolments hapart
  rw [hcontainer] at halike hregistered
  obtain ⟨accepted, hfind, hasked⟩ := hregistered (enrolments.take 4)
    (.presented vehicle convert cars .transient none) [] rfl rfl rfl (List.forall_mem_nil _)
  exact ⟨hapart, reachable, plansFit, halike, ⟨accepted, hfind⟩,
    (hasked session reachable plansFit).1 (Enrolment.honest_of_interface rfl)⟩

def twin : TypeTag := .declared 7 vehicle.name

/-- Of two interfaces of one name, the one that is registered first is replaced by the other one, or
keeps it from being registered; in the first case it cannot be asked for any more. -/
theorem twins_interfere :
    let first : Enrolment host := .givenHandle vehicle 1 none
    let second : Enrolment host := .givenHandle twin 2 none
    let replacing := [first, second].mapM Enrolment.attempt (.withOptions {})
    let refusing :=
      [first, second].mapM Enrolment.attempt (.withOptions { registrationMode := .strict })
    first.serviceType ≠ second.serviceType ∧ vehicle.id ≠ twin.id ∧
      replacing.1 = [.ok (), .ok ()] ∧
      replacing.2.container.registry.find? (first.serviceType.key none) =
        some (second.registration 1) ∧
      (Action.outcome (replacing.2.container.ask first.serviceType none
        (replacing.2.session 0 fun _ => 0).state)).map Instance.payload =
          .error (.typeMismatch vehicle.name) ∧
      refusing.1 = [.ok (), .error (.alreadyRegistered twin.name)] :=
  ⟨by decide, by decide, rfl, rfl, by decide +kernel, rfl⟩

end Sample

end Wiring
