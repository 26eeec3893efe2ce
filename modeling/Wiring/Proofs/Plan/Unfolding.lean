import Mathlib.Algebra.Ring.Nat
import Wiring.Proofs.Plan.Layout
import Wiring.Proofs.Registry.Catalogue
import Wiring.Proofs.Registry.Selection
import Wiring.Proofs.Survey.Resolvable

namespace Wiring

variable {H : Host}

namespace Registry

/-- How many nodes stand for a parameter, if `count` tells how many stand for a registration. -/
def occurrences (registry : Registry H) (count : Registration H → Nat) (parameter : Parameter H) :
    Nat :=
  match registry.find? parameter.key with
  | some d => count d
  | none => 1

/-- How many nodes stand for the registration and everything below it, if nothing is shared and no
chain is longer than the depth. -/
def unfolding (registry : Registry H) (policy : ConstructorPolicy) : Nat → Registration H → Nat
  | 0, _ => 0
  | depth + 1, r =>
    match policy.choose? r.constructors with
    | some chosen =>
      (chosen.parameters.map (registry.occurrences (unfolding registry policy depth))).sum + 1
    | none => 0

def Unshared (registry : Registry H) (policy : ConstructorPolicy) (r : Registration H) : Prop :=
  ∀ d, registry.Reaches policy r d → d.lifetime = .transient

variable {registry : Registry H} {policy : ConstructorPolicy} {r d : Registration H}

theorem unfolding_succ {chosen : Constructor H} (depth : Nat)
    (hchosen : policy.choose? r.constructors = some chosen) :
    registry.unfolding policy (depth + 1) r =
      (chosen.parameters.map (registry.occurrences (registry.unfolding policy depth))).sum + 1 := by
  rw [unfolding, hchosen]

theorem Unshared.of_dependsOn (h : registry.Unshared policy r)
    (hd : registry.DependsOn policy r d) : registry.Unshared policy d :=
  fun e he => h e (.head hd he)

end Registry

namespace Survey

variable {s t u : Survey H} {n m : Nat} {exact : Prop}

/-- The arena has grown by so many nodes at most, and under the given condition by no fewer. -/
structure GrowsBy (n : Nat) (exact : Prop) (s t : Survey H) : Prop where
  size_le : t.nodes.size ≤ s.nodes.size + n
  size_eq : exact → t.nodes.size = s.nodes.size + n

theorem GrowsBy.refl (s : Survey H) (exact : Prop) : s.GrowsBy 0 exact s :=
  ⟨Nat.le_refl _, fun _ => rfl⟩

theorem GrowsBy.trans (hst : s.GrowsBy n exact t) (htu : t.GrowsBy m exact u) :
    s.GrowsBy (n + m) exact u where
  size_le := by
    have := hst.size_le
    have := htu.size_le
    omega
  size_eq h := by
    rw [htu.size_eq h, hst.size_eq h, Nat.add_assoc]

theorem GrowsBy.append (s : Survey H) (provenance : Provenance H) (args : List NodeId)
    (lifetime : Lifetime) (exact : Prop) :
    s.GrowsBy 1 exact (s.append provenance args lifetime).2 :=
  ⟨Nat.le_of_eq (size_append ..), fun _ => size_append ..⟩

theorem growsBy_mapM {α β : Type} (exact : Prop) (weight : α → Nat) {f : α → Planner H β}
    {elements : List α} (hstep : ∀ a ∈ elements, ∀ s,
      Action.Ends (fun _ t => GrowsBy (weight a) exact s t) (fun _ _ => True) (f a s))
    (s : Survey H) :
    Action.Ends (fun _ t => s.GrowsBy (elements.map weight).sum exact t) (fun _ _ => True)
      (elements.mapM f s) := by
  induction elements generalizing s with
  | nil => exact .refl s exact
  | cons a rest ih =>
      rw [List.mapM_cons, List.map_cons, List.sum_cons]
      apply (hstep a (by simp) s).bind
      intro b mid hmid
      apply (ih (fun a ha => hstep a (by simp [ha])) mid).bind
      exact fun others t ht => hmid.trans ht

end Survey

namespace Planner

theorem planRegistration_growsBy (registry : Registry H) (options : Options) (budget : Nat)
    (r : Registration H) (s : Survey H) :
    Action.Ends (fun _ t => s.GrowsBy (registry.unfolding options.constructorPolicy budget r)
        (registry.Unshared options.constructorPolicy r) t) (fun _ _ => True)
      (planRegistration registry options budget r s) := by
  induction budget using Nat.strongRecOn generalizing r s with
  | ind budget ih =>
      refine planRegistration_rule ?_ (fun _ => trivial) (fun _ _ => trivial) (fun _ => trivial) ?_
      · intro id hknown
        refine ⟨Nat.le_add_right _ _, fun hunshared => ?_⟩
        have hsingleton := (Survey.known?_eq_some hknown).1
        rw [hunshared r .refl] at hsingleton
        cases hsingleton
      · rintro less chosen rfl - - hchosen
        rw [Registry.unfolding_succ less hchosen]
        refine (Survey.growsBy_mapM (registry.Unshared options.constructorPolicy r)
          (registry.occurrences (registry.unfolding options.constructorPolicy less)) ?_
          (s.descend r.key)).mono ?_ (fun _ _ h => h)
        · intro parameter hparameter t
          unfold Registry.occurrences
          refine planParameter_rule ?_ ?_ (fun _ _ => trivial)
          · intro d hfind
            simp only [hfind]
            have hd : registry.DependsOn options.constructorPolicy r d :=
              ⟨chosen, hchosen, parameter, hparameter, hfind⟩
            exact (ih less (Nat.lt_succ_self _) d t).mono
              (fun _ _ h => ⟨h.size_le, fun hunshared => h.size_eq (hunshared.of_dependsOn hd)⟩)
              (fun _ _ h => h)
          · intro hnone _
            simp only [hnone]
            obtain ⟨hle, heq⟩ := Survey.GrowsBy.append (noteDefault t r parameter)
              (.defaulted parameter) [] .transient (registry.Unshared options.constructorPolicy r)
            exact ⟨hle, heq⟩
        · intro args mid hmid
          obtain ⟨hle, heq⟩ := hmid.trans (.append mid (.constructed r chosen) args r.lifetime _)
          constructor
          · rw [Survey.remember_nodes]
            exact hle
          · rw [Survey.remember_nodes]
            exact heq

end Planner

namespace Registry

variable {registry : Registry H} {options : Options} {root : Key} {r : Registration H} {p : Plan H}

/-- A plan has no more nodes than there are occurrences of services, and exactly as many if nothing
is shared. -/
theorem size_of_plan (hroot : registry.find? root = some r)
    (hplan : (registry.plan options root).result = .ok p) :
    p.nodes.size ≤ registry.unfolding options.constructorPolicy options.maxDepth.toNat r ∧
      (registry.Unshared options.constructorPolicy r → p.nodes.size =
        registry.unfolding options.constructorPolicy options.maxDepth.toNat r) := by
  obtain ⟨id, t, hplanned, hindex, rfl⟩ := (plan_eq_ok_iff hroot).mp hplan
  have hgrows := Planner.planRegistration_growsBy registry options options.maxDepth.toNat r
    Survey.start
  rw [hplanned] at hgrows
  have hempty : (Survey.start (H := H)).nodes.size = 0 := rfl
  obtain ⟨hle, heq⟩ := hgrows
  rw [hempty, Nat.zero_add] at hle heq
  exact ⟨hle, heq⟩

/-- When the numbers in a plan are right. Every plan is the image of an arena of any size, which is
laid out as the survey goes: everything in it refers to what was planned for it and stands before
it, and the root is last. The numbers in the plan tell its nodes apart, end with the root and refer
to what the arena refers to, if the plan has no more nodes than there are words; if it has more, two
nodes have one number, and the root's is not the number of the last node. There are enough words
whenever the root has no more occurrences of services below it, down to the depth limit. -/
theorem plan_faithful_within_words (hplan : (registry.plan options root).result = .ok p) :
    ∃ r l, registry.find? root = some r ∧ p.LaidOut registry options r l ∧
      (p.Faithful l ↔ p.nodes.size ≤ UInt32.size) ∧
      (UInt32.size < p.nodes.size →
        (∃ i j, i < j ∧ j < p.nodes.size ∧ NodeId.ofIndex i = NodeId.ofIndex j) ∧
        p.root.index + 1 < p.nodes.size) ∧
      p.nodes.size ≤ registry.unfolding options.constructorPolicy options.maxDepth.toNat r ∧
      (registry.Unshared options.constructorPolicy r → p.nodes.size =
        registry.unfolding options.constructorPolicy options.maxDepth.toNat r) := by
  obtain ⟨r, l, hroot, hl⟩ := exists_layout_of_plan hplan
  obtain ⟨hle, heq⟩ := size_of_plan hroot hplan
  refine ⟨r, l, hroot, hl, hl.faithful_iff, fun hmany => ⟨?_, ?_⟩, hle, heq⟩
  · exact ⟨0, UInt32.size, by decide, hmany, rfl⟩
  · have hword : p.root.index < UInt32.size := p.root.val.toNat_lt
    omega

end Registry

namespace Sample

theorem vehicle_faithful : ∃ plan, (Sample.registry.plan {} root).result = .ok plan ∧
    plan.nodes.size = 6 ∧ ∃ r l, Sample.registry.find? root = some r ∧
      plan.LaidOut Sample.registry {} r l ∧ plan.Faithful l := by
  have hsize : ((Sample.registry.plan {} root).result.map
      fun plan => plan.nodes.size).toOption = some 6 := by decide +kernel
  cases hresult : (Sample.registry.plan {} root).result with
  | error e =>
      rw [hresult] at hsize
      cases hsize
  | ok plan =>
      rw [hresult] at hsize
      have hnodes : plan.nodes.size = 6 := Option.some.inj hsize
      obtain ⟨r, l, hroot, hl, hfaithful, -⟩ := Registry.plan_faithful_within_words hresult
      exact ⟨plan, rfl, hnodes, r, l, hroot, hl, hfaithful.mpr (by rw [hnodes]; decide)⟩

/-- Batteries of all sizes, told apart by names of as many letters. -/
def cell (n : Nat) : Option String :=
  some (String.ofList (List.replicate n 'n'))

/-- A battery of each size consists of two of the size below. -/
def cells : Nat → Implementation host
  | 0 => part battery []
  | n + 1 => part battery [.service battery (cell n), .service battery (cell n)]

/-- The sizes up to `n`, all of them transient, from the smallest one up. -/
def tower : Nat → Registry host
  | 0 => Registry.empty.store (.ofType battery (cell 0)) (.construct (cells 0) .transient none)
  | n + 1 =>
    (tower n).store (.ofType battery (cell (n + 1))) (.construct (cells (n + 1)) .transient none)

def storey (n : Nat) : Registration host :=
  ⟨.ofType battery (cell n), .construct (cells n) .transient none, n⟩

theorem storey_key_inj {n m : Nat} (h : ((storey n).key == (storey m).key) = true) : n = m := by
  have hname : cell n = cell m := (Key.beq_iff.mp h).2
  have hlength := congrArg String.length (Option.some.inj hname)
  simpa using hlength

theorem nextSequence_tower (n : Nat) : (tower n).nextSequence = n + 1 := by
  induction n with
  | zero => rfl
  | succ n ih => rw [tower, Registry.nextSequence_store, ih]

theorem assembled_tower (n : Nat) : (tower n).Assembled := by
  induction n with
  | zero => exact .store _ _ (.withCapacity 16)
  | succ n ih => exact .store _ _ ih

theorem mem_tower_iff {n : Nat} {r : Registration host} :
    r ∈ (tower n).toList ↔ ∃ m ≤ n, r = storey m := by
  induction n with
  | zero =>
      have hempty : (Registry.empty (H := host)).Assembled := .withCapacity 16
      rw [tower, Registry.mem_toList_store_iff hempty.coherent]
      simp [Registry.mem_toList_iff, Registry.empty, Registry.withCapacity, storey]
  | succ n ih =>
      rw [tower, Registry.mem_toList_store_iff (assembled_tower n).coherent, ih,
        nextSequence_tower]
      constructor
      · rintro (rfl | ⟨⟨m, hm, rfl⟩, -⟩)
        · exact ⟨n + 1, Nat.le_refl _, rfl⟩
        · exact ⟨m, Nat.le_succ_of_le hm, rfl⟩
      · rintro ⟨m, hm, rfl⟩
        rcases Nat.le_succ_iff.mp hm with hle | rfl
        · refine Or.inr ⟨⟨m, hle, rfl⟩, fun hkey => ?_⟩
          have := storey_key_inj (m := n + 1) hkey
          omega
        · exact Or.inl rfl

theorem find?_tower {n m : Nat} (hm : m ≤ n) :
    (tower n).find? (.ofType battery (cell m)) = some (storey m) :=
  (assembled_tower n).find?_eq_some_iff.mpr ⟨mem_tower_iff.mpr ⟨m, hm, rfl⟩, BEq.rfl⟩

theorem unshared_tower {policy : ConstructorPolicy} {n m : Nat} (hm : m ≤ n) :
    (tower n).Unshared policy (storey m) := by
  intro d hd
  obtain ⟨k, -, rfl⟩ := mem_tower_iff.mp
    (Registry.Reaches.mem_toList (mem_tower_iff.mpr ⟨m, hm, rfl⟩) hd)
  rfl

def joins (n : Nat) : Constructor host :=
  .declare battery
    (match n with
    | 0 => []
    | n + 1 => [.service battery (cell n), .service battery (cell n)]) fun _ => number

theorem choose?_storey (policy : ConstructorPolicy) (n : Nat) :
    policy.choose? (storey n).constructors = some (joins n) := by
  cases n <;> exact ConstructorPolicy.choose?_singleton policy _

theorem dependsOn_storey {policy : ConstructorPolicy} {n m : Nat} (hm : m ≤ n)
    {d : Registration host} (hd : (tower n).DependsOn policy (storey m) d) :
    ∃ k, m = k + 1 ∧ d = storey k := by
  obtain ⟨chosen, hchosen, parameter, hparameter, hfind⟩ := hd
  rw [choose?_storey, Option.some.injEq] at hchosen
  subst hchosen
  cases m with
  | zero => cases hparameter
  | succ k =>
      have hkey : parameter.key = .ofType battery (cell k) := by
        rcases List.mem_pair.mp hparameter with rfl | rfl <;> rfl
      rw [hkey, find?_tower (by omega), Option.some.injEq] at hfind
      exact ⟨k, rfl, hfind.symm⟩

theorem within_storey {policy : ConstructorPolicy} {n m : Nat} (hm : m ≤ n) :
    (tower n).Within policy (m + 1) (storey m) := by
  induction m with
  | zero =>
      intro d hd
      obtain ⟨k, hk, -⟩ := dependsOn_storey hm hd
      cases hk
  | succ m ih =>
      intro d hd
      obtain ⟨k, hk, rfl⟩ := dependsOn_storey hm hd
      cases hk
      exact ih (by omega)

theorem plannable_storey {options : Options} {n m : Nat} (hm : m ≤ n) :
    (tower n).Plannable options (storey m) := by
  induction m with
  | zero =>
      exact .intro (choose?_storey _ 0) (List.forall_mem_nil _) (List.forall_mem_nil _)
  | succ m ih =>
      have hbelow : (tower n).find? (.ofType battery (cell m)) = some (storey m) :=
        find?_tower (by omega)
      have hfind : ∀ parameter ∈ (joins (m + 1)).parameters,
          (tower n).find? parameter.key = some (storey m) := by
        intro parameter hparameter
        rcases List.mem_pair.mp hparameter with rfl | rfl <;> exact hbelow
      refine .intro (choose?_storey _ (m + 1)) ?_ ?_
      · intro parameter hparameter hnone
        rw [hfind parameter hparameter] at hnone
        cases hnone
      · intro parameter hparameter d hd
        rw [hfind parameter hparameter, Option.some.injEq] at hd
        exact hd ▸ ih (by omega)

theorem unfolding_storey (policy : ConstructorPolicy) {n m : Nat} (hm : m ≤ n) {depth : Nat}
    (hdepth : m < depth) :
    (tower n).unfolding policy depth (storey m) + 1 = 2 ^ (m + 1) := by
  induction m generalizing depth with
  | zero =>
      obtain ⟨less, rfl⟩ := Nat.exists_eq_add_of_lt hdepth
      rw [Nat.zero_add, Registry.unfolding_succ less (choose?_storey _ 0)]
      rfl
  | succ m ih =>
      obtain ⟨less, rfl⟩ : ∃ less, depth = less + 1 := ⟨depth - 1, by omega⟩
      have hbelow := ih (by omega) (show m < less by omega)
      have hparameter : (tower n).occurrences ((tower n).unfolding policy less)
          (.service battery (cell m)) = (tower n).unfolding policy less (storey m) := by
        unfold Registry.occurrences
        rw [show (Parameter.service (H := host) battery (cell m)).key = .ofType battery (cell m)
          from rfl, find?_tower (by omega)]
      rw [Registry.unfolding_succ less (choose?_storey _ (m + 1))]
      simp only [joins, Constructor.declare, List.map_cons, List.map_nil, hparameter,
        List.sum_cons, List.sum_nil]
      rw [Nat.pow_succ]
      omega

/-- With the options as they come, the battery on top of 32 others can be planned, its plan has
about twice as many nodes as there are words, and the root does not denote the last of them. -/
theorem tower_outgrows_words : ∃ plan,
    ((tower 32).plan {} (.ofType battery (cell 32))).result = .ok plan ∧
      plan.nodes.size = 2 ^ 33 - 1 ∧ UInt32.size < plan.nodes.size ∧
      (∃ i j, i < j ∧ j < plan.nodes.size ∧ NodeId.ofIndex i = NodeId.ofIndex j) ∧
      plan.root.index + 1 < plan.nodes.size := by
  have hroot : (tower 32).find? (.ofType battery (cell 32)) = some (storey 32) :=
    find?_tower (Nat.le_refl _)
  let options : Options := {}
  have hwithin : (tower 32).Within options.constructorPolicy options.maxDepth.toNat (storey 32) :=
    (within_storey (Nat.le_refl 32)).mono (show 33 ≤ options.maxDepth.toNat by decide)
  have houtside : Planner.Outside (tower 32) options (Survey.start (H := host)).path (storey 32) :=
    List.forall_mem_nil _
  obtain ⟨id, t, hplanned, -⟩ := Planner.exists_planRegistration (assembled_tower 32)
    (mem_tower_iff.mpr ⟨32, Nat.le_refl _, rfl⟩) (plannable_storey (Nat.le_refl _)) hwithin houtside
  obtain ⟨plan, hplan⟩ := Registry.exists_plan_of_planRegistration hroot hplanned
  have hsize := (Registry.size_of_plan hroot hplan).2 (unshared_tower (Nat.le_refl _))
  have hunfolding := unfolding_storey .mostParameters (Nat.le_refl 32)
    (show 32 < options.maxDepth.toNat by decide)
  have hnodes : plan.nodes.size = 2 ^ 33 - 1 := by
    rw [hsize]
    exact Nat.eq_sub_of_add_eq hunfolding
  have hmany : UInt32.size < plan.nodes.size := by
    rw [hnodes]
    decide
  have hword : plan.root.index < UInt32.size := plan.root.val.toNat_lt
  exact ⟨plan, hplan, hnodes, hmany, ⟨0, UInt32.size, by decide, hmany, rfl⟩, by omega⟩

end Sample

end Wiring
