import Wiring.Plan.Survey
import Wiring.Proofs.Registry.Coherence
import Mathlib.Logic.Relation

/-!
Registrations as a graph. A registration depends on what is stored under the keys of the parameters
of its chosen constructor. Below a registration from which no circle can be reached, every chain of
dependencies is at most as long as the registry is large.
-/

namespace Wiring

theorem exists_foldl_eq_some {α : Type} {pick : Option α → α → Option α}
    (hpick : ∀ current candidate, ∃ best, pick (some current) candidate = some best)
    (rest : List α) (current : α) : ∃ best, rest.foldl pick (some current) = some best := by
  induction rest generalizing current with
  | nil => exact ⟨current, rfl⟩
  | cons candidate rest ih =>
      obtain ⟨best, hbest⟩ := hpick current candidate
      rw [List.foldl_cons, hbest]
      exact ih best

theorem ConstructorPolicy.choose?_eq_none_iff {H : Host} (policy : ConstructorPolicy)
    (candidates : List (Constructor H)) : policy.choose? candidates = none ↔ candidates = [] := by
  cases policy with
  | firstDeclared => exact List.head?_eq_none_iff
  | mostParameters =>
      cases candidates with
      | nil => simp [choose?]
      | cons first rest =>
          have hsome : ∃ best, mostParameters.choose? (first :: rest) = some best := by
            refine exists_foldl_eq_some ?_ rest first
            intro current candidate
            dsimp only
            split
            · exact ⟨current, rfl⟩
            · exact ⟨candidate, rfl⟩
          obtain ⟨best, hbest⟩ := hsome
          simp [hbest]

namespace Registry

variable {H : Host}

/-- The chosen constructor of a registration asks for another one. -/
def DependsOn (registry : Registry H) (policy : ConstructorPolicy) (r d : Registration H) : Prop :=
  ∃ chosen, policy.choose? r.constructors = some chosen ∧
    ∃ parameter ∈ chosen.parameters, registry.find? parameter.key = some d

/-- What a registration is built from, directly or through others; itself included. -/
abbrev Reaches (registry : Registry H) (policy : ConstructorPolicy) :
    Registration H → Registration H → Prop :=
  Relation.ReflTransGen (registry.DependsOn policy)

/-- The registration is built from itself. -/
def OnCircle (registry : Registry H) (policy : ConstructorPolicy) (r : Registration H) : Prop :=
  Relation.TransGen (registry.DependsOn policy) r r

/-- Chains of dependencies from the registration have at most the given number of members. -/
def Within (registry : Registry H) (policy : ConstructorPolicy) : Nat → Registration H → Prop
  | 0, _ => False
  | depth + 1, r => ∀ d, registry.DependsOn policy r d → Within registry policy depth d

variable {registry : Registry H} {policy : ConstructorPolicy} {r d : Registration H}

theorem DependsOn.mem_toList (h : registry.DependsOn policy r d) : d ∈ registry.toList := by
  obtain ⟨chosen, -, parameter, -, hfind⟩ := h
  exact Coherent.mem_of_find? hfind

theorem Reaches.mem_toList (hr : r ∈ registry.toList) (h : registry.Reaches policy r d) :
    d ∈ registry.toList := by
  induction h with
  | refl => exact hr
  | tail _ hstep => exact hstep.mem_toList

theorem Within.succ {depth : Nat} (hr : registry.Within policy depth r) :
    registry.Within policy (depth + 1) r := by
  induction depth generalizing r with
  | zero => exact hr.elim
  | succ depth ih =>
      intro d hd
      exact ih (hr d hd)

theorem Within.mono {depth more : Nat} (hr : registry.Within policy depth r)
    (hle : depth ≤ more) : registry.Within policy more r := by
  induction hle with
  | refl => exact hr
  | step _ ih => exact ih.succ

/-- `path` holds registrations that lead to `r`; all of them and `r` are different, and there are no
more than the registry has. -/
theorem within_of_path {depth : Nat} {path : List (Registration H)} (hr : r ∈ registry.toList)
    (hacyclic : ∀ d, registry.Reaches policy r d → ¬ registry.OnCircle policy d)
    (hmem : ∀ a ∈ path, a ∈ registry.toList) (hnodup : path.Nodup)
    (hleads : ∀ a ∈ path, Relation.TransGen (registry.DependsOn policy) a r)
    (hlong : registry.size ≤ path.length + depth) : registry.Within policy depth r := by
  have hfresh : r ∉ path := by
    intro hpath
    exact hacyclic r .refl (hleads r hpath)
  have hextended : (r :: path).Nodup := List.nodup_cons.mpr ⟨hfresh, hnodup⟩
  have hextendedMem : ∀ a ∈ r :: path, a ∈ registry.toList := by
    intro a ha
    rcases List.mem_cons.mp ha with rfl | ha
    · exact hr
    · exact hmem a ha
  induction depth generalizing r path with
  | zero =>
      have hlength := length_le_size hextended hextendedMem
      simp at hlength
      omega
  | succ depth ih =>
      intro d hd
      have hleadsOn : ∀ a ∈ r :: path, Relation.TransGen (registry.DependsOn policy) a d := by
        intro a ha
        rcases List.mem_cons.mp ha with rfl | ha
        · exact .single hd
        · exact (hleads a ha).tail hd
      have hacyclicOn : ∀ e, registry.Reaches policy d e → ¬ registry.OnCircle policy e := by
        intro e he
        exact hacyclic e (.head hd he)
      have hfreshOn : d ∉ r :: path := by
        intro hpath
        exact hacyclicOn d .refl (hleadsOn d hpath)
      refine ih hd.mem_toList hacyclicOn hextendedMem hextended hleadsOn ?_ hfreshOn
        (List.nodup_cons.mpr ⟨hfreshOn, hextended⟩) ?_
      · simp only [List.length_cons]
        omega
      · intro a ha
        rcases List.mem_cons.mp ha with rfl | ha
        · exact hd.mem_toList
        · exact hextendedMem a ha

theorem within_size (hr : r ∈ registry.toList)
    (hacyclic : ∀ d, registry.Reaches policy r d → ¬ registry.OnCircle policy d) :
    registry.Within policy registry.size r :=
  within_of_path hr hacyclic (List.forall_mem_nil _) List.nodup_nil (List.forall_mem_nil _)
    (by simp)

end Registry

/-! A small example: a vehicle of a motor and a lamp, which share a battery. -/

namespace Sample

/-- Client code that counts the parts that it builds. -/
abbrev host : Host := ⟨Nat, Empty, Nat⟩

def battery : TypeTag := .declared 0 "Battery"
def fuse : TypeTag := .declared 1 "Fuse"
def motor : TypeTag := .declared 2 "Motor"
def lamp : TypeTag := .declared 3 "Lamp"
def colour : TypeTag := .declared 4 "Colour"
def car : TypeTag := .declared 5 "Car"
def vehicle : TypeTag := .declared 6 "Vehicle"

/-- Instances are numbered; building the first one fails. -/
def number : Client host (Except Failure Nat) := fun count =>
  if count = 0 then ⟨.error (.missingDependency car.name battery.name), 1, []⟩
  else ⟨.ok count, count + 1, []⟩

def part (type : TypeTag) (parameters : List (Parameter host)) : Implementation host :=
  ⟨type, [.declare type parameters fun _ => number]⟩

def batteries : Implementation host := part battery []

def motors : Implementation host := part motor [.service battery none, .service fuse none]

def lamps : Implementation host :=
  part lamp [.value colour fun count => ⟨0, count, []⟩, .service battery none]

def cars : Implementation host := part car [.service motor none, .service lamp none]

def convert : Conversion host := fun payload count => ⟨.ok payload, count, []⟩

def root : Key := .ofInterface vehicle

def registry : Registry host :=
  Registry.withCapacity 2
    |>.store (.ofType battery) (.construct batteries .singleton none)
    |>.store (.ofType fuse) (.given ⟨fuse, 5, .given 1⟩)
    |>.store (.ofType motor) (.construct motors .singleton none)
    |>.store (.ofType lamp) (.construct lamps .transient none)
    |>.store root (.construct cars .transient (some ⟨vehicle, car, convert⟩))

theorem assembled : registry.Assembled :=
  .store _ _ (.store _ _ (.store _ _ (.store _ _ (.store _ _ (.withCapacity 2)))))

end Sample

end Wiring
