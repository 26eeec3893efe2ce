import Wiring.Proofs.Client.Accessors
import Wiring.Proofs.Container.Enrolment
import Wiring.Proofs.Container.Portraits

namespace Wiring

variable {H : Host}

def Constructor.makes (c : Constructor H) : TypeTag :=
  match c.recipe with
  | .assemble _ => c.implementation
  | .handOut object => object.type

def Adapter.Reliable (a : Adapter H) : Prop :=
  ∀ payload world, ∃ handle, (a.convert payload world).result = .ok handle

namespace Registration

/-- The runtime type of what is delivered for the registration. -/
def delivers (r : Registration H) : TypeTag :=
  match r.adapter with
  | some adapter => adapter.target.handle
  | none => r.implementation

/-- The registration delivers what its key names: a type, or handles to an interface. An adapter
converts what is built. -/
structure Sincere (r : Registration H) : Prop where
  key : (∃ name, r.key = .ofType r.delivers name) ∨
    ∃ interface name, r.key = .ofInterface interface name ∧ r.delivers = interface.handle
  adapter : ∀ adapter, r.adapter = some adapter → adapter.source = r.implementation

/-- Unless an adapter presents what is built, it is of the implementation type. -/
def Honest (r : Registration H) : Prop :=
  r.adapter = none → ∀ c ∈ r.constructors, c.makes.id = r.implementation.id

end Registration

theorem Enrolment.sincere (e : Enrolment H) (accepted : Nat) :
    (e.registration accepted).Sincere := by
  cases e with
  | declared i lifetime name => exact ⟨Or.inl ⟨name, rfl⟩, by rintro _ ⟨⟩⟩
  | listed i lifetime name => exact ⟨Or.inl ⟨name, rfl⟩, by rintro _ ⟨⟩⟩
  | presented interface convert i lifetime name =>
      refine ⟨Or.inr ⟨interface, name, rfl, rfl⟩, ?_⟩
      rintro _ ⟨⟩
      rfl
  | given type payload name => exact ⟨Or.inl ⟨name, rfl⟩, by rintro _ ⟨⟩⟩
  | givenHandle interface payload name =>
      exact ⟨Or.inr ⟨interface, name, rfl, rfl⟩, by rintro _ ⟨⟩⟩

namespace Builder

variable {b : Builder H}

theorem forall_mem_perform {P : Registration H → Prop} (hb : ∀ r ∈ b.registry.toList, P r)
    {e : Enrolment H} (he : ∀ accepted, P (e.registration accepted)) :
    ∀ r ∈ (Action.finalState (e.perform b)).registry.toList, P r := by
  rw [e.perform_eq]
  cases e.complaint? with
  | some failure => exact hb
  | none =>
      intro r hr
      change r ∈ (Action.finalState
        (register e.key (e.provision b.registry.nextSequence) b)).registry.toList at hr
      rcases registry_register e.key (e.provision b.registry.nextSequence) b with hsame | hstored
      · rw [hsame] at hr
        exact hb r hr
      · rw [hstored] at hr
        rcases Registry.mem_toList_store hr with rfl | hold
        · exact he b.registry.nextSequence
        · exact hb r hold

theorem forall_mem_withOptions {P : Registration H → Prop} (options : Options) :
    ∀ r ∈ (Builder.withOptions options).registry.toList, P r := by
  intro r hr
  have hnone : r ∈ (Registry.withCapacity 16).toList := hr
  simp [Registry.mem_toList_iff, Registry.withCapacity] at hnone

theorem Made.sincere (hb : b.Made) : ∀ r ∈ b.registry.toList, r.Sincere := by
  induction hb with
  | withOptions options => exact forall_mem_withOptions options
  | add _ i lifetime name ih =>
      exact forall_mem_perform ih (Enrolment.declared i lifetime name).sincere
  | addListed _ i lifetime name ih =>
      exact forall_mem_perform ih (Enrolment.listed i lifetime name).sincere
  | addInterface _ interface convert i lifetime name ih =>
      exact forall_mem_perform ih (Enrolment.presented interface convert i lifetime name).sincere
  | addInstance _ type payload name ih =>
      exact forall_mem_perform ih (Enrolment.given type payload name).sincere
  | addInterfaceInstance _ interface payload name ih =>
      exact forall_mem_perform ih (Enrolment.givenHandle interface payload name).sincere
  | addObserver _ observer ih => exact ih
  | validate _ ih => exact ih

end Builder

theorem Session.Reachable.sincere {c : Container H} {q : Session H} (h : q.Reachable c) :
    ∀ r ∈ c.registry.toList, r.Sincere := by
  obtain ⟨b, -, -, -, hb, rfl, -⟩ := h
  intro r hr
  exact hb.sincere r (Registry.mem_toList_freeze.mp hr)

def typing : Reading H TypeTag where
  describe _ object := some object.type
  constructed c _ := c.makes
  adapted adapter _ := adapter.target.handle
  defaulted := Parameter.delivers

theorem typing_shows_iff {journal : Journal H} {object : Instance H} {type : TypeTag} :
    typing.Shows journal object type ↔ object.type = type := by
  simp [Reading.Shows, typing]

theorem typing_truthful (registry : Registry H) : typing.Truthful registry where
  keeps _ hshows := hshows
  handedOut _ _ hrecipe _ _ := by
    rw [typing_shows_iff]
    simp [typing, Constructor.makes, hrecipe]
  assembled _ _ hmade hcalls := by
    rw [typing_shows_iff]
    cases hcalls.genuine with
    | handOut hrecipe => simp [Call.made?, hrecipe] at hmade
    | assemble hrecipe => simp [typing, Constructor.makes, hrecipe]
  adapted _ hcalls := by
    rw [typing_shows_iff]
    cases hcalls.genuine with
    | convert => rfl
  defaulted _ hcalls := by
    rw [typing_shows_iff]
    cases hcalls.genuine with
    | default => rfl

namespace Registry

/-- Every constructor of a registration builds the implementation type. -/
def BuildsImplementations (registry : Registry H) : Prop :=
  ∀ r ∈ registry.toList, ∀ c ∈ r.constructors, c.makes.id = r.implementation.id

/-- The type is an interface of the registry: handles to it are registered, or a constructor asks for
them. -/
def HasInterface (registry : Registry H) (interface : TypeTag) : Prop :=
  ∃ r ∈ registry.toList,
    (∃ name, r.key = .ofInterface interface name ∧ r.delivers = interface.handle) ∨
      ∃ c ∈ r.constructors, ∃ name, Parameter.interface interface name ∈ c.parameters

/-- The name tells the interface from all other interfaces of the registry. -/
def Distinguishes (registry : Registry H) (interface : TypeTag) : Prop :=
  ∀ other, registry.HasInterface other → other.name = interface.name → other.id = interface.id

variable {registry : Registry H} {policy : ConstructorPolicy} {r : Registration H}

theorem delivers_of_concrete (hsincere : r.Sincere) {type : TypeTag}
    (hservice : (r.key.service == .concrete type.id type.name) = true) :
    r.delivers.id = type.id := by
  rcases hsincere.key with ⟨name, hkey⟩ | ⟨interface, name, hkey, -⟩
  · rw [hkey] at hservice
    simpa [Key.ofType, BEq.beq, Service.beq] using hservice
  · rw [hkey] at hservice
    cases hservice

theorem delivers_of_interface (hsincere : r.Sincere) (hmem : r ∈ registry.toList)
    {interface : TypeTag} (hdistinguishes : registry.Distinguishes interface)
    (hservice : (r.key.service == .interface interface.name) = true) :
    r.delivers.id = interface.handle.id := by
  rcases hsincere.key with ⟨name, hkey⟩ | ⟨other, name, hkey, hdelivers⟩
  · rw [hkey] at hservice
    cases hservice
  · have hname : other.name = interface.name := by
      rw [hkey] at hservice
      simpa [Key.ofInterface, BEq.beq, Service.beq] using hservice
    have hoffered : registry.HasInterface other := ⟨r, hmem, Or.inl ⟨name, hkey, hdelivers⟩⟩
    rw [hdelivers]
    exact TypeTag.handle_id_inj.mpr (hdistinguishes other hoffered hname)

theorem BuildsImplementations.honest (h : registry.BuildsImplementations)
    (hmem : r ∈ registry.toList) : r.Honest := fun _ => h r hmem

theorem delivers_of_portrait (hhonest : r.Honest) {depth : Nat} {type : TypeTag}
    (hportrait : typing.portrait registry policy depth r = some type) :
    type.id = r.delivers.id := by
  cases depth with
  | zero => cases hportrait
  | succ depth =>
      obtain ⟨chosen, pictures, hchosen, -, rfl⟩ :=
        Reading.portrait_succ_eq_some_iff.mp hportrait
      unfold Reading.presented Registration.delivers
      cases hadapter : r.adapter with
      | some adapter => rfl
      | none => exact hhonest hadapter chosen (ConstructorPolicy.choose?_eq_some_iff.mp hchosen).mem

theorem distinguishes_of_single {single : TypeTag}
    (hkeys : ∀ r ∈ registry.toList, r.key.isInterface = true →
      r.delivers.id = single.handle.id)
    (hparameters : ∀ r ∈ registry.toList, ∀ c ∈ r.constructors, ∀ parameter ∈ c.parameters,
      parameter.key.isInterface = true → parameter.delivers.id = single.handle.id)
    {interface : TypeTag} (h : registry.HasInterface interface) :
    registry.Distinguishes interface := by
  have hsingle : ∀ other, registry.HasInterface other → other.id = single.id := by
    rintro other ⟨r, hr, ⟨name, hkey, hdelivers⟩ | ⟨c, hc, name, hparameter⟩⟩
    · have hid := hkeys r hr (by rw [hkey]; rfl)
      rw [hdelivers] at hid
      exact TypeTag.handle_id_inj.mp hid
    · exact TypeTag.handle_id_inj.mp (hparameters r hr c hc _ hparameter rfl)
  exact fun other hother _ => (hsingle other hother).trans (hsingle interface h).symm

variable {parameter : Parameter H} {d : Registration H}

theorem delivers_of_find? (hr : registry.Assembled) (hsincere : ∀ r ∈ registry.toList, r.Sincere)
    (hdistinguishes : ∀ interface name, parameter = .interface interface name →
      registry.Distinguishes interface)
    (hfind : registry.find? parameter.key = some d) : d.delivers.id = parameter.delivers.id := by
  have hmem := Coherent.mem_of_find? hfind
  have hservice := (Key.beq_iff.mp (hr.coherent.find?_key hfind)).1
  cases parameter with
  | service type name => exact delivers_of_concrete (hsincere d hmem) hservice
  | interface interface name =>
      have happart := hdistinguishes interface name rfl
      exact delivers_of_interface (hsincere d hmem) hmem happart hservice
  | value type standard => exact delivers_of_concrete (hsincere d hmem) hservice

theorem type_of_delivery (hr : registry.Assembled) (hsincere : ∀ r ∈ registry.toList, r.Sincere)
    (hbuilds : registry.BuildsImplementations)
    (hdistinguishes : ∀ interface name, parameter = .interface interface name →
      registry.Distinguishes interface) {depth : Nat} {picture : Option TypeTag}
    (hpicture : typing.delivery registry (typing.portrait registry policy depth) parameter =
      some picture) : ∀ type, picture = some type → type.id = parameter.delivers.id := by
  rintro type rfl
  unfold Reading.delivery at hpicture
  cases hfind : registry.find? parameter.key with
  | some d =>
      rw [hfind] at hpicture
      obtain ⟨found, hportrait, heq⟩ := Option.map_eq_some_iff.mp hpicture
      cases heq
      rw [delivers_of_portrait (hbuilds.honest (Coherent.mem_of_find? hfind)) hportrait]
      exact delivers_of_find? hr hsincere hdistinguishes hfind
  | none =>
      rw [hfind] at hpicture
      cases hkind : parameter.kind with
      | reference =>
          rw [hkind] at hpicture
          cases hpicture
      | value =>
          rw [hkind] at hpicture
          cases hpicture
          rfl

/-- Constructors receive what their parameters promise. -/
theorem fits_of_accounts (hr : registry.Assembled) (hsincere : ∀ r ∈ registry.toList, r.Sincere)
    (hbuilds : registry.BuildsImplementations)
    (hapart : ∀ interface, registry.HasInterface interface → registry.Distinguishes interface)
    {journal : Journal H} {callee : Constructor H} {args : List (Option (Instance H))}
    {result : Except Failure (Instance H)}
    (haccounts : typing.Accounts registry policy journal (.construct callee args result)) :
    List.Forall₂ Parameter.Fits callee.parameters args := by
  cases haccounts with
  | @construct r _ depth pictures _ _ hmem hchosen hpictures hargs =>
      have hcallee := (ConstructorPolicy.choose?_eq_some_iff.mp hchosen).mem
      -- The portraits stand between the parameters and the arguments, position by position.
      have htypes : List.Forall₂
          (fun picture parameter => ∀ type, picture = some type →
            type.id = parameter.delivers.id) pictures callee.parameters := by
        refine List.Forall₂.flip (List.forall₂_iff_zip.mpr ?_)
        obtain ⟨hlength, hzip⟩ := List.forall₂_iff_zip.mp (mapM_eq_some_iff.mp hpictures)
        refine ⟨hlength, fun {parameter picture} hmemzip => ?_⟩
        refine type_of_delivery hr hsincere hbuilds (fun interface name hparameter => ?_)
          (hzip hmemzip)
        subst hparameter
        exact hapart interface
          ⟨r, hmem, Or.inr ⟨callee, hcallee, name, (List.of_mem_zip hmemzip).1⟩⟩
      refine forall₂_join htypes (List.Forall₂.flip (R := fun picture arg => _) hargs) ?_
      rintro picture parameter arg htype hshows object rfl
      cases hshows with
      | some hobject =>
          rw [typing_shows_iff.mp hobject]
          exact htype _ rfl

theorem converts_of_accounts (hsincere : ∀ r ∈ registry.toList, r.Sincere)
    (hbuilds : registry.BuildsImplementations) {journal : Journal H} {adapter : Adapter H}
    {object : Instance H} {result : Except Failure (Instance H)}
    (haccounts : typing.Accounts registry policy journal (.adapt adapter object result))
    (hgenuine : (Call.adapt adapter object result).Genuine) :
    object.type.id = adapter.source.id ∧
      (∀ e, result = .error e →
        ∃ world, (adapter.convert object.payload world).result = .error e) ∧
      (adapter.Reliable → ∃ handle, result = .ok handle) := by
  have htype : object.type.id = adapter.source.id := by
    cases haccounts with
    | @adapt r _ chosen _ _ _ hmem hadapter hchosen hobject =>
        rw [typing_shows_iff.mp hobject, (hsincere r hmem).adapter adapter hadapter]
        exact hbuilds r hmem chosen (ConstructorPolicy.choose?_eq_some_iff.mp hchosen).mem
  have hfails : ∀ e, result = .error e →
      ∃ world, (adapter.convert object.payload world).result = .error e := by
    rintro e rfl
    cases hgenuine with
    | refuse hexpect =>
        rw [Instance.expect, if_pos htype] at hexpect
        cases hexpect
    | decline _ hreply => exact ⟨_, hreply⟩
  refine ⟨htype, hfails, fun hreliable => ?_⟩
  cases result with
  | ok handle => exact ⟨handle, rfl⟩
  | error e =>
      obtain ⟨world, hreply⟩ := hfails e rfl
      obtain ⟨handle, hok⟩ := hreliable object.payload world
      rw [hok] at hreply
      cases hreply

end Registry

namespace Container

variable {c : Container H} {view : Instance H → Except Failure (Instance H)}
  {s : ContainerState H}

theorem bind_viewed {m : Run H (Instance H)}
    (hview : ∀ object t, m s = .ok object t → view object = .ok object) :
    (m >>= viewed view) s = m s := by
  cases hm : m s with
  | error e t => exact Action.bind_of_error _ hm
  | ok object t =>
      rw [Action.bind_of_ok _ hm, viewed, hview object t hm]
      rfl

theorem bind_mapM_viewed {m : Run H (List (Instance H))}
    (hview : ∀ objects t, m s = .ok objects t → ∀ object ∈ objects, view object = .ok object) :
    (m >>= fun objects => objects.mapM (viewed view)) s = m s := by
  have hall : ∀ (objects : List (Instance H)) (t : ContainerState H),
      (∀ object ∈ objects, view object = .ok object) →
        objects.mapM (viewed view) t = .ok objects t := by
    intro objects t hobjects
    induction objects with
    | nil => rfl
    | cons object rest ih =>
        have hfirst : viewed view object t = .ok object t := by
          rw [viewed, hobjects object (by simp)]
          rfl
        have hrest := ih fun other hother => hobjects other (by simp [hother])
        rw [List.mapM_cons, Action.bind_of_ok _ hfirst, Action.bind_of_ok _ hrest]
        rfl
  cases hm : m s with
  | error e t => exact Action.bind_of_error _ hm
  | ok objects t =>
      rw [Action.bind_of_ok _ hm]
      exact hall objects t (hview objects t hm)

end Container

namespace Session.Reachable

variable {c : Container H} {q : Session H}

theorem delivers_of_presents {journal : Journal H} {key : Key} {object : Instance H}
    (h : c.Presents typing journal key object) :
    ∃ r, c.registry.find? key = some r ∧ (r.Honest → object.type.id = r.delivers.id) := by
  obtain ⟨-, type, -, hprospect, hshows⟩ := h
  obtain ⟨r, hfind, hportrait⟩ := Container.prospect_eq_some_iff.mp hprospect
  rw [typing_shows_iff] at hshows
  exact ⟨r, hfind, fun hhonest => hshows ▸ Registry.delivers_of_portrait hhonest hportrait⟩

theorem type_of_resolve (h : q.Reachable c) (hfits : c.PlansFit)
    (hbuilds : c.registry.BuildsImplementations) {key : Key} {object : Instance H}
    {s : ContainerState H} (hresolve : c.resolve key q.state = .ok object s) :
    ∃ r ∈ c.registry.toList, (r.key == key) = true ∧ object.type.id = r.delivers.id := by
  obtain ⟨r, hfind, htype⟩ :=
    delivers_of_presents (h.presents_of_resolve hfits (typing_truthful c.registry) hresolve)
  have hmem := Registry.Coherent.mem_of_find? hfind
  exact ⟨r, hmem, h.assembled.coherent.find?_key hfind, htype (hbuilds.honest hmem)⟩

theorem delivers_of_resolveAll (h : q.Reachable c) (hfits : c.PlansFit) {key : Key}
    {objects : List (Instance H)} {s : ContainerState H}
    (hresolve : c.resolveAll key q.state = .ok objects s) :
    ∀ object ∈ objects, ∃ r ∈ c.registry.ofService key,
      (r.Honest → object.type.id = r.delivers.id) := by
  have hpresents := h.presents_of_resolveAll hfits (typing_truthful c.registry) hresolve
  intro object hobject
  obtain ⟨r, hr, hpresented⟩ := exists_of_forall₂_right hpresents object hobject
  have hmem := (Registry.mem_ofService.mp hr).1
  obtain ⟨d, hfind, htype⟩ := delivers_of_presents hpresented
  rw [h.assembled.coherent.find?_self hmem, Option.some.injEq] at hfind
  subst hfind
  exact ⟨r, hr, htype⟩

theorem type_of_resolveAll (h : q.Reachable c) (hfits : c.PlansFit)
    (hbuilds : c.registry.BuildsImplementations) {key : Key} {objects : List (Instance H)}
    {s : ContainerState H} (hresolve : c.resolveAll key q.state = .ok objects s) :
    ∀ object ∈ objects, ∃ r ∈ c.registry.toList, (r.key.sameService key) = true ∧
      object.type.id = r.delivers.id := by
  intro object hobject
  obtain ⟨r, hr, htype⟩ := h.delivers_of_resolveAll hfits hresolve object hobject
  obtain ⟨hmem, hservice⟩ := Registry.mem_ofService.mp hr
  exact ⟨r, hmem, hservice, htype (hbuilds.honest hmem)⟩

/-- Type soundness of injection. In every session with a container whose constructors build what they
are registered for and whose interfaces are told apart by their names: what a constructor receives has
the type that its parameter promises, so that reading the arguments in order, each by an accessor for
the promised type, fails only where an argument is absent; an adapter is given what it converts, and
fails only if the conversion does, so that none fails if conversions cannot; and resolving by type does
what resolving by key does. -/
theorem injection_type_sound (h : q.Reachable c) (hfits : c.PlansFit)
    (hbuilds : c.registry.BuildsImplementations)
    (hapart : ∀ interface, c.registry.HasInterface interface →
      c.registry.Distinguishes interface) :
    (∀ callee args result,
      Entry.call (.construct callee args result) ∈ q.store.journal.toList →
        List.Forall₂ Parameter.Fits callee.parameters args ∧
        ∀ accessors, List.Forall₂ Parameter.ReadBy (callee.parameters.take accessors.length)
            accessors →
          ∀ e, .error e ∈ Accessor.readAll accessors (.ofValues callee.label args) →
            ∃ dependency, e = .missingDependency callee.label dependency) ∧
    (∀ adapter object result, Entry.call (.adapt adapter object result) ∈ q.store.journal.toList →
      object.type.id = adapter.source.id ∧
        (∀ e, result = .error e →
          ∃ world, (adapter.convert object.payload world).result = .error e) ∧
        (adapter.Reliable → ∃ handle, result = .ok handle)) ∧
    (∀ type name, c.get type name q.state = c.resolve (.ofType type name) q.state) ∧
    (∀ type, c.getAll type q.state = c.resolveAll (.ofType type) q.state) ∧
    ∀ interface, c.registry.Distinguishes interface →
      (∀ name, c.getInterface interface name q.state =
        c.resolve (.ofInterface interface name) q.state) ∧
      c.getAllInterface interface q.state = c.resolveAll (.ofInterface interface) q.state := by
  have hr := h.assembled
  have hsincere := h.sincere
  -- All that was ever delivered is in the journal, with the portrait that it fits.
  have hportrayed := (h.portrayed hfits (typing_truthful c.registry)).1
  refine ⟨?_, ?_, ?_, ?_, ?_⟩
  · intro callee args result hcall
    have hargs := Registry.fits_of_accounts hr hsincere hbuilds hapart
      (hportrayed.called _ hcall).2
    exact ⟨hargs, fun accessors haccessors => Accessor.readAll_from hargs haccessors⟩
  · intro adapter object result hcall
    obtain ⟨hgenuine, haccounts⟩ := hportrayed.called _ hcall
    exact Registry.converts_of_accounts hsincere hbuilds haccounts hgenuine
  · intro type name
    refine Container.bind_viewed fun object t hresolve => ?_
    obtain ⟨r, hmem, hkey, htype⟩ := h.type_of_resolve hfits hbuilds hresolve
    have hdelivers := Registry.delivers_of_concrete (hsincere r hmem) (Key.beq_iff.mp hkey).1
    exact Instance.expect_eq_ok_iff.mpr ⟨htype.trans hdelivers, rfl⟩
  · intro type
    refine Container.bind_mapM_viewed fun objects t hresolve object hobject => ?_
    obtain ⟨r, hmem, hservice, htype⟩ := h.type_of_resolveAll hfits hbuilds hresolve object hobject
    have hdelivers := Registry.delivers_of_concrete (hsincere r hmem) (Key.beq_iff.mp hservice).1
    exact Instance.expect_eq_ok_iff.mpr ⟨htype.trans hdelivers, rfl⟩
  · intro interface hdistinguishes
    -- One argument for a single key and for all registrations of a service.
    have hview {object : Instance H} {r : Registration H} (hmem : r ∈ c.registry.toList)
        (hservice : (r.key.service == .interface interface.name) = true)
        (htype : object.type.id = r.delivers.id) :
        object.expectInterface interface = .ok object := by
      have hdelivers :=
        Registry.delivers_of_interface (hsincere r hmem) hmem hdistinguishes hservice
      exact Instance.expectInterface_eq_ok_iff.mpr ⟨htype.trans hdelivers, rfl⟩
    constructor
    · intro name
      refine Container.bind_viewed fun object t hresolve => ?_
      obtain ⟨r, hmem, hkey, htype⟩ := h.type_of_resolve hfits hbuilds hresolve
      exact hview hmem (Key.beq_iff.mp hkey).1 htype
    · refine Container.bind_mapM_viewed fun objects t hresolve object hobject => ?_
      obtain ⟨r, hmem, hservice, htype⟩ :=
        h.type_of_resolveAll hfits hbuilds hresolve object hobject
      exact hview hmem (Key.beq_iff.mp hservice).1 htype

end Session.Reachable

namespace Sample

theorem buildsImplementations : container.registry.BuildsImplementations := by
  unfold Registry.BuildsImplementations
  decide +kernel

theorem distinguishes {interface : TypeTag} (h : container.registry.HasInterface interface) :
    container.registry.Distinguishes interface :=
  Registry.distinguishes_of_single (by decide +kernel : ∀ r ∈ container.registry.toList,
    r.key.isInterface = true → r.delivers.id = vehicle.handle.id) (by decide +kernel) h

def buildsMotor : Entry host → Bool
  | .call (.construct callee args _) => callee.label = motor.name && args.length = 2 &&
      callee.parameters.map (·.delivers.id) = [battery.id, fuse.id]
  | _ => false

/-- The motor was built from the battery and the fuse, both of which it could read. -/
theorem motor_type_sound : session.Reachable container ∧ container.PlansFit ∧
    container.registry.BuildsImplementations ∧
    (∀ interface, container.registry.HasInterface interface →
      container.registry.Distinguishes interface) ∧
    ∃ callee args result,
      Entry.call (.construct callee args result) ∈ session.store.journal.toList ∧
        callee.label = motor.name ∧ args.length = 2 ∧
        List.Forall₂ Parameter.Fits callee.parameters args ∧
        ∀ e, .error e ∈ Accessor.readAll [.required battery, .required fuse]
            (.ofValues callee.label args) →
          ∃ dependency, e = .missingDependency callee.label dependency := by
  have hapart : ∀ interface, container.registry.HasInterface interface →
      container.registry.Distinguishes interface := fun _ => distinguishes
  have hany : session.store.journal.toList.any buildsMotor = true := by decide +kernel
  obtain ⟨entry, hentry, hfacts⟩ := List.any_eq_true.mp hany
  unfold buildsMotor at hfacts
  split at hfacts
  next callee args result =>
    simp only [Bool.and_eq_true, decide_eq_true_eq] at hfacts
    obtain ⟨⟨hlabel, hlength⟩, htypes⟩ := hfacts
    obtain ⟨hfits, hread⟩ := (reachable.injection_type_sound plansFit buildsImplementations
      hapart).1 callee args result hentry
    refine ⟨reachable, plansFit, buildsImplementations, hapart, callee, args, result, hentry,
      hlabel, hlength, hfits, hread _ ?_⟩
    obtain ⟨first, others, hparameters, hfirst, hothers⟩ := List.map_eq_cons_iff.mp htypes
    obtain ⟨second, rest, rfl, hsecond, hrest⟩ := List.map_eq_cons_iff.mp hothers
    rw [hparameters]
    exact .cons hfirst.symm (.cons hsecond.symm .nil)
  next => cases hfacts

end Sample

end Wiring
