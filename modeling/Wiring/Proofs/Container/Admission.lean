import Wiring.Proofs.Container.Enrolment

namespace Wiring

variable {H : Host}

/-- Every constructor builds the type. -/
def Implementation.Consistent (i : Implementation H) : Prop :=
  ∀ c ∈ i.constructors, c.implementation.id = i.type.id

instance (i : Implementation H) : Decidable i.Consistent := by
  unfold Implementation.Consistent
  infer_instance

def Registration.Consistent (r : Registration H) : Prop :=
  ∀ c ∈ r.constructors, c.implementation.id = r.implementation.id

instance (r : Registration H) : Decidable r.Consistent := by
  unfold Registration.Consistent
  infer_instance

namespace Enrolment

variable {b : Builder H} {r : Registration H}

/-- The type and the constructors that the call supplies, unless it hands over an instance. -/
def implementation? : Enrolment H → Option (Implementation H)
  | .declared i _ _ => some i
  | .listed i _ _ => some i
  | .presented _ _ i _ _ => some i
  | .given _ _ _ => none
  | .givenHandle _ _ _ => none

def isListed : Enrolment H → Bool
  | .listed _ _ _ => true
  | _ => false

theorem consistent_registration_iff (e : Enrolment H) (accepted : Nat) :
    (e.registration accepted).Consistent ↔ ∀ i, e.implementation? = some i → i.Consistent := by
  have hgiven (object : Instance H) : ∀ c ∈ [Constructor.ofInstance object],
      c.implementation.id = object.type.id := by
    simp [Constructor.ofInstance]
  cases e with
  | declared i lifetime name => exact ⟨fun h _ heq => Option.some.inj heq ▸ h, fun h => h i rfl⟩
  | listed i lifetime name => exact ⟨fun h _ heq => Option.some.inj heq ▸ h, fun h => h i rfl⟩
  | presented interface convert i lifetime name =>
      exact ⟨fun h _ heq => Option.some.inj heq ▸ h, fun h => h i rfl⟩
  | given type payload name => exact ⟨fun _ => by rintro _ ⟨⟩, fun _ => hgiven _⟩
  | givenHandle interface payload name => exact ⟨fun _ => by rintro _ ⟨⟩, fun _ => hgiven _⟩

theorem complaint?_eq_some_iff {e : Enrolment H} {failure : Failure} :
    e.complaint? = some failure ↔
      e.isListed = true ∧ ∃ i, e.implementation? = some i ∧ ¬ i.Consistent ∧
        failure = .typeMismatch i.type.name := by
  cases e with
  | listed i lifetime name =>
      have hall : i.constructors.all (·.implementation.id == i.type.id) = true ↔ i.Consistent := by
        simp [Implementation.Consistent]
      simp only [complaint?, hall]
      by_cases hi : i.Consistent
      · simp [implementation?, hi]
      · simp [implementation?, isListed, hi, eq_comm]
  | _ => simp [complaint?, isListed]

theorem attempt_of_complaint {e : Enrolment H} {failure : Failure}
    (h : e.complaint? = some failure) : e.attempt b = (.error failure, b) := by
  unfold attempt
  rw [e.perform_eq, h]

/-- The only other reason to refuse a call is that the key is taken. -/
theorem attempt_eq_error {e : Enrolment H} {failure : Failure}
    (h : (e.attempt b).1 = .error failure) :
    e.complaint? = some failure ∨ failure = .alreadyRegistered e.key.displayName := by
  unfold attempt at h
  rw [e.perform_eq] at h
  cases hcomplaint : e.complaint? with
  | some complaint =>
      rw [hcomplaint] at h
      cases h
      exact Or.inl rfl
  | none =>
      rw [hcomplaint] at h
      unfold Builder.register Registry.insert at h
      by_cases hrefused : b.options.registrationMode = .strict ∧ b.registry.contains e.key
      · simp only [if_pos hrefused] at h
        cases h
        exact Or.inr rfl
      · simp only [if_neg hrefused] at h
        cases h

theorem attempt_typeMismatch_iff {e : Enrolment H} {type : String} :
    (e.attempt b).1 = .error (.typeMismatch type) ↔
      e.isListed = true ∧ ∃ i, e.implementation? = some i ∧ ¬ i.Consistent ∧
        type = i.type.name := by
  have hcomplaint : (e.attempt b).1 = .error (.typeMismatch type) ↔
      e.complaint? = some (.typeMismatch type) := by
    constructor
    · intro h
      rcases attempt_eq_error h with hfound | htaken
      · exact hfound
      · cases htaken
    · intro h
      rw [attempt_of_complaint h]
  rw [hcomplaint, complaint?_eq_some_iff]
  simp only [Failure.typeMismatch.injEq]

theorem mem_attempt {e : Enrolment H} (hr : r ∈ (e.attempt b).2.registry.toList) :
    r ∈ b.registry.toList ∨ e.complaint? = none ∧ Stored r e := by
  cases hcomplaint : e.complaint? with
  | some failure =>
      rw [attempt_of_complaint hcomplaint] at hr
      exact Or.inl hr
  | none =>
      unfold attempt at hr
      rw [e.perform_eq, hcomplaint] at hr
      unfold Builder.register Registry.insert at hr
      by_cases hrefused : b.options.registrationMode = .strict ∧ b.registry.contains e.key
      · simp only [if_pos hrefused] at hr
        exact Or.inl hr
      · simp only [if_neg hrefused] at hr
        rcases Registry.mem_toList_store hr with hnew | hold
        · exact Or.inr ⟨rfl, _, hnew⟩
        · exact Or.inl hold

theorem mem_attemptAll {es : List (Enrolment H)}
    (hr : r ∈ (es.mapM attempt b).2.registry.toList) :
    r ∈ b.registry.toList ∨ ∃ e ∈ es, e.complaint? = none ∧ Stored r e := by
  induction es generalizing b with
  | nil => exact Or.inl hr
  | cons e rest ih =>
      rw [List.mapM_cons] at hr
      rcases ih (b := (e.attempt b).2) hr with hbefore | ⟨other, hother, hstored⟩
      · exact (mem_attempt hbefore).imp_right fun hstored => ⟨e, by simp, hstored⟩
      · exact Or.inr ⟨other, List.mem_cons_of_mem _ hother, hstored⟩

theorem mem_attemptAll_withCapacity {options : Options} {capacity : Nat} {es : List (Enrolment H)}
    (hr : r ∈ (es.mapM attempt (.withCapacity options capacity)).2.registry.toList) :
    ∃ e ∈ es, e.complaint? = none ∧ Stored r e := by
  refine (mem_attemptAll hr).resolve_left fun hnone => ?_
  have hempty : r ∈ (Registry.withCapacity capacity).toList := hnone
  simp [Registry.mem_toList_iff, Registry.withCapacity] at hempty

end Enrolment

/-- Which calls keep foreign constructors out. After any sequence of registration calls, answered or
refused: a call is refused for a type exactly if it lists constructors by hand for the type, one of
which builds another; the builder is then left as it was. Every registration that the builder or its
container holds has constructors of its implementation type only, unless it was stored by a call
that takes the constructors as the type declares them, and that supplied a foreign one. -/
theorem Builder.listed_constructors_admitted (options : Options) (capacity : Nat)
    (enrolments : List (Enrolment H)) :
    let b := (enrolments.mapM Enrolment.attempt (.withCapacity options capacity)).2
    (∀ (e : Enrolment H) (type : String), (e.attempt b).1 = .error (.typeMismatch type) ↔
      e.isListed = true ∧ ∃ i, e.implementation? = some i ∧ ¬ i.Consistent ∧
        type = i.type.name) ∧
    (∀ (i : Implementation H) (lifetime : Lifetime) (name : Option String), ¬ i.Consistent →
      (Enrolment.listed i lifetime name).attempt b = (.error (.typeMismatch i.type.name), b)) ∧
    ∀ r, r ∈ b.registry.toList ∨ r ∈ b.container.registry.toList →
      ∃ e ∈ enrolments, Enrolment.Stored r e ∧
        (r.Consistent ∨ e.isListed = false ∧ ∃ i, e.implementation? = some i ∧ ¬ i.Consistent) := by
  intro b
  refine ⟨fun e type => Enrolment.attempt_typeMismatch_iff, ?_, ?_⟩
  · intro i lifetime name hi
    exact Enrolment.attempt_of_complaint
      (Enrolment.complaint?_eq_some_iff.mpr ⟨rfl, i, rfl, hi, rfl⟩)
  · intro r hr
    have hmem : r ∈ b.registry.toList :=
      hr.elim id fun hfrozen => Registry.mem_toList_freeze.mp hfrozen
    obtain ⟨e, he, hcomplaint, hstored⟩ := Enrolment.mem_attemptAll_withCapacity hmem
    refine ⟨e, he, hstored, ?_⟩
    by_cases hconsistent : r.Consistent
    · exact Or.inl hconsistent
    · obtain ⟨accepted, rfl⟩ := hstored
      rw [Enrolment.consistent_registration_iff] at hconsistent
      obtain ⟨i, hi, hforeign⟩ : ∃ i, e.implementation? = some i ∧ ¬ i.Consistent := by
        simpa only [not_forall, exists_prop] using hconsistent
      refine Or.inr ⟨?_, i, hi, hforeign⟩
      -- A listed implementation would have been refused.
      cases hlisted : e.isListed with
      | false => rfl
      | true =>
          rw [Enrolment.complaint?_eq_some_iff.mpr ⟨hlisted, i, hi, hforeign, rfl⟩] at hcomplaint
          cases hcomplaint

namespace Sample

def misfit : Implementation host := ⟨lamp, batteries.constructors⟩

theorem misfit_refused_if_listed : ¬ misfit.Consistent ∧
    let b := (enrolments.mapM Enrolment.attempt (.withCapacity {} 16)).2
    (Enrolment.listed misfit .transient none).attempt b =
      (.error (.typeMismatch lamp.name), b) := by
  have hmisfit : ¬ misfit.Consistent := by decide
  obtain ⟨-, hrefused, -⟩ := Builder.listed_constructors_admitted {} 16 enrolments
  exact ⟨hmisfit, hrefused misfit .transient none hmisfit⟩

/-- Registered as a type that declares its constructors, or as an implementation of an interface,
the same lamp is accepted and stored. -/
theorem misfit_accepted_if_declared : ¬ misfit.Consistent ∧
    ∀ e ∈ [Enrolment.declared misfit .transient none,
        .presented vehicle convert misfit .singleton none],
      (e.attempt (.withOptions {})).1 = .ok () ∧
        ∃ r ∈ (e.attempt (.withOptions {})).2.registry.toList,
          Enrolment.Stored r e ∧ ¬ r.Consistent := by
  have hmisfit : ¬ misfit.Consistent := by decide
  have hforeign {e : Enrolment host} (hsupplied : e.implementation? = some misfit) :
      ¬ (e.registration 0).Consistent := fun h =>
    hmisfit ((e.consistent_registration_iff 0).mp h misfit hsupplied)
  have hstored {e : Enrolment host} {r : Registration host} {registry : Registry host}
      (h : registry.toList = [r]) (hr : r = e.registration 0)
      (hsupplied : e.implementation? = some misfit) :
      ∃ r ∈ registry.toList, Enrolment.Stored r e ∧ ¬ r.Consistent :=
    ⟨r, by simp [h], ⟨0, hr⟩, hr ▸ hforeign hsupplied⟩
  refine ⟨hmisfit, List.forall_mem_cons.mpr ⟨⟨rfl, hstored rfl rfl rfl⟩,
    List.forall_mem_singleton.mpr ⟨rfl, hstored rfl rfl rfl⟩⟩⟩

end Sample

end Wiring
