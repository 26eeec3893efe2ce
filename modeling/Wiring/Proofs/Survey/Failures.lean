import Wiring.Proofs.Registry.Dependency
import Wiring.Proofs.Survey.Derivation
import Mathlib.Data.List.Chain

namespace Wiring

variable {H : Host}

namespace Registry

/-- A chain of dependencies from the service of a key: registrations under different keys, each asked
for by the chosen constructor of the one before it. -/
structure Chain (registry : Registry H) (policy : ConstructorPolicy) (root : Key)
    (chain : List (Registration H)) : Prop where
  starts : chain.head? = registry.find? root
  linked : chain.IsChain (registry.DependsOn policy)
  apart : chain.Pairwise fun a b => (a.key == b.key) = false

def ReachedFrom (registry : Registry H) (policy : ConstructorPolicy) (root : Key)
    (r : Registration H) : Prop :=
  ∃ top, registry.find? root = some top ∧ registry.Reaches policy top r

/-- What must be true of a registry for planning to fail in this way. -/
inductive Warrants (registry : Registry H) (options : Options) (root : Key) : Failure → Prop
  | notFound (hroot : registry.find? root = none) :
      Warrants registry options root (.notFound root.displayName)
  /-- The last service of a chain depends on one of the chain, itself included. -/
  | circular {chain : List (Registration H)} {last again : Registration H}
      (hchain : registry.Chain options.constructorPolicy root (chain ++ [last]))
      (hagain : again ∈ chain ++ [last])
      (hdepends : registry.DependsOn options.constructorPolicy last again) :
      Warrants registry options root
        (.circular ((chain ++ [last, again]).map (·.key.displayName)))
  /-- A chain of as many services as the limit allows goes on. -/
  | depthExceeded {chain : List (Registration H)} {beyond : Registration H}
      (hchain : registry.Chain options.constructorPolicy root (chain ++ [beyond]))
      (hlength : chain.length = options.maxDepth.toNat) :
      Warrants registry options root (.depthExceeded options.maxDepth.toNat)
  | noConstructor {r : Registration H}
      (hr : registry.ReachedFrom options.constructorPolicy root r) (hnone : r.constructors = []) :
      Warrants registry options root (.noConstructor r.implementation.name)
  | missingDependency {r : Registration H} {chosen : Constructor H} {parameter : Parameter H}
      (hpolicy : options.missingDependency = .refuse)
      (hr : registry.ReachedFrom options.constructorPolicy root r)
      (hchosen : options.constructorPolicy.choose? r.constructors = some chosen)
      (hparameter : parameter ∈ chosen.parameters)
      (hmissing : registry.find? parameter.key = none) :
      Warrants registry options root
        (.missingDependency r.key.displayName parameter.key.displayName)

variable {registry : Registry H} {policy : ConstructorPolicy} {options : Options} {root : Key}

theorem Chain.reachedFrom {chain : List (Registration H)}
    (h : registry.Chain policy root chain) : ∀ r ∈ chain, registry.ReachedFrom policy root r := by
  refine h.linked.induction (registry.ReachedFrom policy root) _ ?_ ?_
  · rintro r d hd ⟨top, htop, hr⟩
    exact ⟨top, htop, hr.tail hd⟩
  · intro hne
    exact ⟨_, (List.head?_eq_some_head hne ▸ h.starts).symm, .refl⟩

theorem Warrants.exists_onCircle {names : List String}
    (h : registry.Warrants options root (.circular names)) :
    ∃ r, registry.ReachedFrom options.constructorPolicy root r ∧
      registry.OnCircle options.constructorPolicy r := by
  cases h with
  | @circular chain last again hchain hagain hdepends =>
      refine ⟨again, hchain.reachedFrom again hagain, ?_⟩
      obtain ⟨before, after, hsplit⟩ := List.append_of_mem hagain
      have hlinked : (again :: after).IsChain (registry.DependsOn options.constructorPolicy) :=
        (hsplit ▸ hchain.linked).right_of_append
      have hlast : (again :: after).getLast (by simp) = last := by
        have := congrArg List.getLast? hsplit
        simpa [List.getLast?_eq_some_getLast] using this.symm
      exact .tail' (List.relationReflTransGen_of_exists_isChain_cons _ hlinked hlast) hdepends

end Registry

namespace Planner

variable {registry : Registry H} {options : Options} {root : Key} {r d : Registration H}
  {chain : List (Registration H)} {budget : Nat} {s t : Survey H}

/-- The survey is inside of the services of a chain from the root, which depends on the registration
next, and it has entered as many services as its budget has shrunk by. -/
structure Approaches (registry : Registry H) (options : Options) (root : Key)
    (chain : List (Registration H)) (r : Registration H) (budget : Nat) (s : Survey H) : Prop where
  path : s.path = (chain.map Registration.key).reverse
  starts : (chain ++ [r]).head? = registry.find? root
  linked : (chain ++ [r]).IsChain (registry.DependsOn options.constructorPolicy)
  apart : chain.Pairwise fun a b => (a.key == b.key) = false
  budget : chain.length + budget = options.maxDepth.toNat

namespace Approaches

theorem start (options : Options) (hroot : registry.find? root = some r) :
    Approaches registry options root [] r options.maxDepth.toNat Survey.start where
  path := rfl
  starts := hroot.symm
  linked := List.isChain_singleton r
  apart := .nil
  budget := Nat.zero_add _

theorem find?_root (h : Approaches registry options root chain r budget s) :
    registry.find? root = some ((chain ++ [r]).head (by simp)) := by
  rw [← h.starts, List.head?_eq_some_head]

theorem reachedFrom (h : Approaches registry options root chain r budget s) :
    registry.ReachedFrom options.constructorPolicy root r := by
  refine ⟨_, h.find?_root, ?_⟩
  simpa using List.relationReflTransGen_of_exists_isChain _ h.linked (by simp)

theorem mem_toList (h : Approaches registry options root chain r budget s) :
    ∀ a ∈ chain ++ [r], a ∈ registry.toList :=
  h.linked.induction (· ∈ registry.toList) _ (fun _ _ hd _ => hd.mem_toList) fun _ =>
    Registry.Coherent.mem_of_find? h.find?_root

theorem isInside_iff (h : Approaches registry options root chain r budget s)
    (hr : registry.Assembled) : s.isInside r.key = true ↔ r ∈ chain := by
  rw [Survey.isInside, h.path, List.any_eq_true]
  constructor
  · rintro ⟨key, hkey, heq⟩
    obtain ⟨a, ha, rfl⟩ := List.mem_map.mp (List.mem_reverse.mp hkey)
    have hfound := hr.find?_eq_some_iff.mpr ⟨h.mem_toList a (List.mem_append_left _ ha), heq⟩
    rw [hr.coherent.find?_self (h.mem_toList r (by simp)), Option.some.injEq] at hfound
    exact hfound ▸ ha
  · exact fun hmem => ⟨r.key, List.mem_reverse.mpr (List.mem_map_of_mem hmem), BEq.rfl⟩

theorem extend (h : Approaches registry options root chain r budget s)
    (hinside : s.isInside r.key = false) :
    registry.Chain options.constructorPolicy root (chain ++ [r]) where
  starts := h.starts
  linked := h.linked
  apart := by
    rw [Survey.isInside, h.path, List.any_eq_false] at hinside
    refine List.pairwise_append.mpr ⟨h.apart, List.pairwise_singleton _ _, fun a ha b hb => ?_⟩
    rw [List.mem_singleton.mp hb, ← Bool.not_eq_true]
    exact hinside a.key (List.mem_reverse.mpr (List.mem_map_of_mem ha))

theorem circular (h : Approaches registry options root chain r budget s) (hr : registry.Assembled)
    (hinside : s.isInside r.key = true) :
    registry.Warrants options root (.circular (s.pathTo r.key)) := by
  have hagain : r ∈ chain := (h.isInside_iff hr).mp hinside
  obtain ⟨before, last, rfl⟩ : ∃ before last, chain = before ++ [last] :=
    ⟨_, _, (List.dropLast_concat_getLast (List.ne_nil_of_mem hagain)).symm⟩
  have hnames : s.pathTo r.key = (before ++ [last, r]).map (·.key.displayName) := by
    simp [Survey.pathTo, h.path]
  rw [hnames]
  have hlinked := h.linked
  rw [List.append_assoc, List.isChain_append] at hlinked
  refine .circular ⟨?_, h.linked.left_of_append, h.apart⟩ hagain ?_
  · rw [← h.starts]
    simp
  · simpa using hlinked.2.1

theorem descend (h : Approaches registry options root chain r (budget + 1) s)
    (hinside : s.isInside r.key = false)
    (hd : registry.DependsOn options.constructorPolicy r d) (ht : t.path = r.key :: s.path) :
    Approaches registry options root (chain ++ [r]) d budget t where
  path := by
    rw [ht, h.path]
    simp
  starts := by
    rw [← h.starts]
    simp
  linked := h.linked.append (List.isChain_singleton d) (by simpa using hd)
  apart := (h.extend hinside).apart
  budget := by
    have := h.budget
    simp only [List.length_append, List.length_singleton]
    omega

end Approaches

/-- Planning reports nothing that is not so, and comes back out of every service that it enters. -/
theorem planRegistration_warranted (hr : registry.Assembled)
    (h : Approaches registry options root chain r budget s) :
    Action.Ends (fun _ t => t.path = s.path) (fun e _ => registry.Warrants options root e)
      (planRegistration registry options budget r s) := by
  induction budget using Nat.strongRecOn generalizing chain r s with
  | ind budget ih =>
      refine planRegistration_rule (fun _ _ => rfl) (h.circular hr) ?_ ?_ ?_
      · rintro rfl hinside
        have hlength : chain.length = options.maxDepth.toNat := h.budget
        rw [h.path, List.length_reverse, List.length_map, hlength]
        exact .depthExceeded (h.extend hinside) hlength
      · intro hnone
        exact .noConstructor h.reachedFrom
          ((options.constructorPolicy.choose?_eq_none_iff _).mp hnone)
      · rintro less chosen rfl - hinside hchosen
        refine (Action.Ends.mapM (I := fun t : Survey H => t.path = r.key :: s.path)
          (R := fun _ _ => True) ?_ rfl).mono ?_ (fun _ _ h => h)
        · intro parameter hparameter t ht
          refine planParameter_rule ?_ ?_ ?_
          · intro d hfind
            have hd : registry.DependsOn options.constructorPolicy r d :=
              ⟨chosen, hchosen, parameter, hparameter, hfind⟩
            exact (ih less (Nat.lt_succ_self _) (h.descend hinside hd ht)).mono
              (fun _ u hu => ⟨hu.trans ht, trivial⟩) (fun _ _ h => h)
          · exact fun _ _ => ⟨(Survey.append_path _ _ _ _).trans ht, trivial⟩
          · intro hmissing hpolicy
            exact .missingDependency hpolicy h.reachedFrom hchosen hparameter hmissing
        · rintro args mid ⟨hmid, -⟩
          rw [Survey.remember_path, Survey.ascend, Survey.append_path, hmid]
          rfl

end Planner

/-- Whatever planning reports is so: it fails for the reason that it gives and for no reason of any
other kind. -/
theorem Registry.plan_error_warranted {registry : Registry H} {options : Options} {root : Key}
    {e : Failure} (hr : registry.Assembled)
    (herror : (registry.plan options root).result = .error e) :
    registry.Warrants options root e := by
  cases hroot : registry.find? root with
  | none =>
      rw [plan_of_find?_eq_none hroot, Except.error.injEq] at herror
      exact herror ▸ .notFound hroot
  | some r =>
      obtain ⟨t, hplanned⟩ := (plan_eq_error_iff hroot).mp herror
      have hends := Planner.planRegistration_warranted hr (.start options hroot)
      rw [hplanned] at hends
      exact hends

namespace Sample

/-- The motor needs the lamp, the lamp needs the motor, and both need the battery. -/
def tangled : Registry host :=
  Registry.withCapacity 2
    |>.store (.ofType battery) (.construct batteries .singleton none)
    |>.store (.ofType motor)
      (.construct (part motor [.service battery none, .service lamp none]) .singleton none)
    |>.store (.ofType lamp)
      (.construct (part lamp [.service battery none, .service motor none]) .transient none)
    |>.store (.ofType car) (.construct cars .transient none)

theorem eq_error_of_map {α β : Type} {f : α → β} {result : Except Failure α} {e : Failure}
    (h : result.map f = .error e) : result = .error e := by
  cases result with
  | ok a => cases h
  | error other =>
      cases h
      rfl

theorem circle_warranted :
    (tangled.plan {} (.ofType car)).result =
      .error (.circular ["Car", "Motor", "Lamp", "Motor"]) ∧
    tangled.Warrants {} (.ofType car) (.circular ["Car", "Motor", "Lamp", "Motor"]) := by
  have herror : (tangled.plan {} (.ofType car)).result =
      .error (.circular ["Car", "Motor", "Lamp", "Motor"]) :=
    eq_error_of_map (f := fun _ => ()) (by decide +kernel)
  have hassembled : tangled.Assembled :=
    .store _ _ (.store _ _ (.store _ _ (.store _ _ (.withCapacity 2))))
  exact ⟨herror, Registry.plan_error_warranted hassembled herror⟩

end Sample

end Wiring
