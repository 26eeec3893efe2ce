import Wiring.Proofs.Registry.Coherence
import Wiring.Proofs.Survey.Derivation

namespace Wiring

variable {H : Host}

def Origin.renumber (number : Nat → Nat) : Origin → Origin
  | .given sequence => .given (number sequence)
  | .built serial => .built serial

def Instance.renumber (number : Nat → Nat) (object : Instance H) : Instance H :=
  { object with origin := object.origin.renumber number }

def Provision.renumber (number : Nat → Nat) : Provision H → Provision H
  | .construct implementation lifetime adapter => .construct implementation lifetime adapter
  | .given object => .given (object.renumber number)

namespace Registration

def renumber (number : Nat → Nat) (r : Registration H) : Registration H :=
  ⟨r.key, r.provision.renumber number, number r.sequence⟩

/-- The constructor of the renumbered registration that stands where `chosen` stood. -/
def renumberChosen (number : Nat → Nat) (r : Registration H) (chosen : Constructor H) :
    Constructor H :=
  match r.provision with
  | .construct _ _ _ => chosen
  | .given object => .ofInstance (object.renumber number)

variable (number : Nat → Nat) (r : Registration H)

@[simp] theorem renumber_key : (r.renumber number).key = r.key := rfl

@[simp] theorem renumber_lifetime : (r.renumber number).lifetime = r.lifetime := by
  obtain ⟨key, provision, sequence⟩ := r
  cases provision <;> rfl

@[simp] theorem renumber_implementation :
    (r.renumber number).implementation = r.implementation := by
  obtain ⟨key, provision, sequence⟩ := r
  cases provision <;> rfl

theorem choose?_renumber (policy : ConstructorPolicy) :
    policy.choose? (r.renumber number).constructors =
      (policy.choose? r.constructors).map (r.renumberChosen number) := by
  obtain ⟨key, provision, sequence⟩ := r
  cases provision with
  | construct implementation lifetime adapter =>
      have hsame : renumberChosen number
          (⟨key, .construct implementation lifetime adapter, sequence⟩ : Registration H) = id := rfl
      rw [hsame, Option.map_id]
      rfl
  | given object => cases policy <;> rfl

variable {r} in
theorem parameters_renumberChosen {policy : ConstructorPolicy} {chosen : Constructor H}
    (hchosen : policy.choose? r.constructors = some chosen) :
    (r.renumberChosen number chosen).parameters = chosen.parameters := by
  obtain ⟨key, provision, sequence⟩ := r
  cases provision with
  | construct implementation lifetime adapter => rfl
  | given object =>
      have hgiven : chosen = .ofInstance object := by
        cases policy <;> exact (Option.some.inj hchosen).symm
      rw [hgiven]
      rfl

end Registration

def Provenance.renumber (number : Nat → Nat) : Provenance H → Provenance H
  | .constructed r chosen => .constructed (r.renumber number) (r.renumberChosen number chosen)
  | .defaulted parameter => .defaulted parameter

def Node.renumber (number : Nat → Nat) (n : Node H) : Node H :=
  { n with provenance := n.provenance.renumber number }

def Plan.renumber (number : Nat → Nat) (p : Plan H) : Plan H where
  nodes := p.nodes.map (Node.renumber number)
  root := p.root
  slots := p.slots
  root_lt := by
    rw [Array.size_map]
    exact p.root_lt

def Planning.renumber (number : Nat → Nat) (p : Planning H) : Planning H :=
  ⟨p.result.map (Plan.renumber number), p.log⟩

/-- The other registry holds the same registrations under other numbers. -/
def Registry.Renumbered (number : Nat → Nat) (registry other : Registry H) : Prop :=
  ∀ key, other.find? key = (registry.find? key).map (Registration.renumber number)

namespace Survey

def renumber (number : Nat → Nat) (s : Survey H) : Survey H :=
  { s with nodes := s.nodes.map (Node.renumber number) }

variable (number : Nat → Nat) (s : Survey H)

theorem known?_renumber (r : Registration H) :
    (s.renumber number).known? (r.renumber number) = s.known? r := by
  unfold known?
  rw [Registration.renumber_lifetime]
  rfl

theorem remember_renumber (r : Registration H) (id : NodeId) :
    (s.renumber number).remember (r.renumber number) id = (s.remember r id).renumber number := by
  unfold remember
  rw [Registration.renumber_lifetime]
  cases r.lifetime <;> rfl

theorem append_renumber (provenance : Provenance H) (args : List NodeId) (lifetime : Lifetime) :
    (s.renumber number).append (provenance.renumber number) args lifetime =
      ((s.append provenance args lifetime).1,
        (s.append provenance args lifetime).2.renumber number) := by
  cases lifetime <;> simp [append, renumber, Node.renumber]

end Survey

namespace Planner

open Wiring.Action

variable {number : Nat → Nat} {registry other : Registry H} {options : Options}

theorem append_carries (provenance : Provenance H) (args : List NodeId) (lifetime : Lifetime) :
    Carries (Survey.renumber number) (append provenance args lifetime)
      (append (provenance.renumber number) args lifetime) := by
  intro s
  unfold append
  rw [Survey.append_renumber]
  rfl

theorem planMissing_carries (policy : MissingDependencyPolicy) (parent : Registration H)
    (parameter : Parameter H) :
    Carries (Survey.renumber number) (planMissing policy parent parameter)
      (planMissing policy (parent.renumber number) parameter) := by
  cases policy with
  | refuse => exact .throw _
  | substitute =>
      intro s
      exact append_carries (.defaulted parameter) [] .transient (noteDefault s parent parameter)

variable {plan mirrored : Registration H → Planner H NodeId}

theorem planParameter_carries (hregistry : registry.Renumbered number other)
    (hplan : ∀ r, Carries (Survey.renumber number) (plan r) (mirrored (r.renumber number)))
    (parent : Registration H) (parameter : Parameter H) :
    Carries (Survey.renumber number) (planParameter registry options plan parent parameter)
      (planParameter other options mirrored (parent.renumber number) parameter) := by
  unfold planParameter
  rw [hregistry parameter.key]
  cases registry.find? parameter.key with
  | none => exact planMissing_carries _ _ _
  | some dependency => exact hplan dependency

theorem planParts_carries (hregistry : registry.Renumbered number other)
    (hplan : ∀ r, Carries (Survey.renumber number) (plan r) (mirrored (r.renumber number)))
    (r : Registration H) :
    Carries (Survey.renumber number) (planParts registry options plan r)
      (planParts other options mirrored (r.renumber number)) := by
  unfold planParts
  rw [r.choose?_renumber number]
  cases hchosen : options.constructorPolicy.choose? r.constructors with
  | none =>
      rw [Option.map_none, r.renumber_implementation]
      exact .throw _
  | some chosen =>
      simp only [Option.map_some]
      rw [Registration.parameters_renumberChosen number hchosen, r.renumber_lifetime]
      exact Carries.bind (.mapM fun parameter _ => planParameter_carries hregistry hplan r parameter)
        fun args => append_carries (.constructed r chosen) args _

theorem planRegistration_renumber {budget : Nat} {r : Registration H} {s : Survey H}
    (hbelow : s.known? r = none → s.isInside r.key = false →
      planRegistration other options budget (r.renumber number) (s.renumber number) =
        mapState (Survey.renumber number) (planRegistration registry options budget r s)) :
    planRegistration other options budget (r.renumber number) (s.renumber number) =
      mapState (Survey.renumber number) (planRegistration registry options budget r s) := by
  have hknown := s.known?_renumber number r
  cases hfound : s.known? r with
  | some id =>
      rw [planRegistration_known _ hfound, planRegistration_known _ (hknown.trans hfound)]
      rfl
  | none =>
      cases hcircle : s.isInside r.key with
      | true =>
          rw [planRegistration_circular _ hfound hcircle,
            planRegistration_circular _ (hknown.trans hfound) hcircle]
          rfl
      | false => exact hbelow hfound hcircle

theorem planRegistration_carries (hregistry : registry.Renumbered number other) (budget : Nat)
    (r : Registration H) :
    Carries (Survey.renumber number) (planRegistration registry options budget r)
      (planRegistration other options budget (r.renumber number)) := by
  induction budget generalizing r with
  | zero =>
      intro s
      refine planRegistration_renumber fun hfound hcircle => ?_
      rw [planRegistration_deep hfound hcircle,
        planRegistration_deep ((s.known?_renumber number r).trans hfound) hcircle]
      rfl
  | succ budget ih =>
      intro s
      refine planRegistration_renumber fun hfound hcircle => ?_
      have hparts : planParts other options (planRegistration other options budget)
          (r.renumber number) ((s.renumber number).descend r.key) = _ :=
        planParts_carries hregistry ih r (s.descend r.key)
      rw [planRegistration_fresh _ hfound hcircle,
        planRegistration_fresh _ ((s.known?_renumber number r).trans hfound) hcircle,
        Registration.renumber_key, hparts]
      cases planParts registry options (planRegistration registry options budget) r
          (s.descend r.key) with
      | ok id t => exact congrArg (EStateM.Result.ok id) (t.ascend.remember_renumber number r id)
      | error e t => rfl

end Planner

namespace Registry.Renumbered

variable {number : Nat → Nat} {registry other : Registry H}

theorem injOn (hregistry : registry.Renumbered number other) (hr : registry.Assembled)
    (ho : other.Assembled) :
    ∀ a ∈ registry.toList, ∀ b ∈ registry.toList, number a.sequence = number b.sequence → a = b := by
  have hfind : ∀ a ∈ registry.toList, other.find? a.key = some (a.renumber number) := by
    intro a ha
    rw [hregistry, hr.coherent.find?_self ha, Option.map_some]
  intro a ha b hb hab
  have hsame := ho.coherent.sequence_inj _ (Coherent.mem_of_find? (hfind a ha)) _
    (Coherent.mem_of_find? (hfind b hb)) hab
  have hkey := congrArg Registration.key hsame
  rw [Registration.renumber_key, Registration.renumber_key] at hkey
  have hfound := hr.coherent.find?_self ha
  rw [hkey, hr.coherent.find?_self hb] at hfound
  exact (Option.some.inj hfound).symm

end Registry.Renumbered

/-- Registries that differ in numbers only have the same plans, up to these numbers. -/
theorem Registry.plan_renumbered {number : Nat → Nat} {registry other : Registry H}
    (hregistry : registry.Renumbered number other) (options : Options) (root : Key) :
    other.plan options root = (registry.plan options root).renumber number := by
  unfold plan
  rw [hregistry root]
  cases registry.find? root with
  | none => rfl
  | some r =>
      have hsurvey : Planner.planRegistration other options options.maxDepth.toNat
          (r.renumber number) (Survey.start.renumber number) = _ :=
        Planner.planRegistration_carries hregistry options.maxDepth.toNat r Survey.start
      have hstart : Survey.start.renumber number = (Survey.start : Survey H) := by
        simp [Survey.start, Survey.renumber]
      rw [hstart] at hsurvey
      simp only [Option.map_some, hsurvey]
      cases Planner.planRegistration registry options options.maxDepth.toNat r Survey.start with
      | error e s => rfl
      | ok id s =>
          simp only [Action.mapState, Survey.renumber, Array.size_map]
          split <;> rfl

end Wiring
