import Wiring.Proofs.Registry.Dependency
import Mathlib.Data.List.Induction

namespace Wiring.ConstructorPolicy

variable {H : Host}

/-- What each policy stands for: the candidate declared first, or the one declared earliest among
those with the most parameters. -/
inductive Selects : ConstructorPolicy → List (Constructor H) → Constructor H → Prop
  | firstDeclared {chosen : Constructor H} {later : List (Constructor H)} :
      Selects .firstDeclared (chosen :: later) chosen
  | mostParameters {earlier later : List (Constructor H)} {chosen : Constructor H}
      (hearlier : ∀ candidate ∈ earlier, candidate.arity < chosen.arity)
      (hlater : ∀ candidate ∈ later, candidate.arity ≤ chosen.arity) :
      Selects .mostParameters (earlier ++ chosen :: later) chosen

variable {policy : ConstructorPolicy} {candidates : List (Constructor H)}
  {chosen other : Constructor H}

namespace Selects

theorem mem (h : policy.Selects candidates chosen) : chosen ∈ candidates := by
  cases h with
  | firstDeclared => simp
  | mostParameters => simp

theorem arity_le (h : Selects .mostParameters candidates chosen) :
    ∀ candidate ∈ candidates, candidate.arity ≤ chosen.arity := by
  cases h with
  | mostParameters hearlier hlater =>
      intro candidate hcandidate
      rcases List.mem_append.mp hcandidate with hbefore | hafter
      · exact Nat.le_of_lt (hearlier candidate hbefore)
      · rcases List.mem_cons.mp hafter with rfl | hafter
        · exact Nat.le_refl _
        · exact hlater candidate hafter

theorem concat (h : Selects .mostParameters candidates chosen) (last : Constructor H) :
    Selects .mostParameters (candidates ++ [last])
      (if last.arity ≤ chosen.arity then chosen else last) := by
  by_cases hlast : last.arity ≤ chosen.arity
  · rw [if_pos hlast]
    cases h with
    | @mostParameters earlier later _ hearlier hlater =>
        rw [List.append_assoc, List.cons_append]
        refine .mostParameters hearlier (List.forall_mem_append.mpr ⟨hlater, ?_⟩)
        simpa using hlast
  · rw [if_neg hlast]
    refine .mostParameters (fun candidate hcandidate => ?_) (List.forall_mem_nil _)
    have := h.arity_le candidate hcandidate
    omega

theorem unique (h : policy.Selects candidates chosen) (hother : policy.Selects candidates other) :
    chosen = other := by
  cases h with
  | firstDeclared =>
      cases hother with
      | firstDeclared => rfl
  | @mostParameters earlier later _ hearlier hlater =>
      generalize hsame : earlier ++ chosen :: later = candidates at hother
      cases hother with
      | @mostParameters before after _ hbefore hafter =>
          rcases List.append_eq_append_iff.mp hsame with
            ⟨between, rfl, hrest⟩ | ⟨between, rfl, hrest⟩
          · cases between with
            | nil =>
                simp only [List.nil_append, List.cons.injEq] at hrest
                exact hrest.1
            | cons first between =>
                simp only [List.cons_append, List.cons.injEq] at hrest
                obtain ⟨rfl, rfl⟩ := hrest
                have hlt := hbefore chosen (by simp)
                have hle := hlater other (by simp)
                omega
          · cases between with
            | nil =>
                simp only [List.nil_append, List.cons.injEq] at hrest
                exact hrest.1.symm
            | cons first between =>
                simp only [List.cons_append, List.cons.injEq] at hrest
                obtain ⟨rfl, rfl⟩ := hrest
                have hlt := hearlier other (by simp)
                have hle := hafter chosen (by simp)
                omega

end Selects

@[simp] theorem choose?_singleton (policy : ConstructorPolicy) (only : Constructor H) :
    policy.choose? [only] = some only := by
  cases policy <;> rfl

theorem choose?_mostParameters_concat
    (h : choose? .mostParameters candidates = some chosen) (last : Constructor H) :
    choose? .mostParameters (candidates ++ [last]) =
      some (if last.arity ≤ chosen.arity then chosen else last) := by
  simp only [choose?] at h
  simp only [choose?, List.foldl_append, List.foldl_cons, List.foldl_nil, h]
  split <;> rfl

theorem selects_of_choose?_mostParameters
    (h : choose? .mostParameters candidates = some chosen) :
    Selects .mostParameters candidates chosen := by
  induction candidates using List.reverseRecOn generalizing chosen with
  | nil => cases h
  | append_singleton candidates last ih =>
      cases hbest : choose? .mostParameters candidates with
      | none =>
          obtain rfl := (choose?_eq_none_iff _ _).mp hbest
          cases h
          exact .mostParameters (List.forall_mem_nil _) (List.forall_mem_nil _)
      | some current =>
          rw [choose?_mostParameters_concat hbest, Option.some.injEq] at h
          exact h ▸ (ih hbest).concat last

theorem choose?_eq_some_iff :
    policy.choose? candidates = some chosen ↔ policy.Selects candidates chosen := by
  have hselects : ∀ {chosen}, policy.choose? candidates = some chosen →
      policy.Selects candidates chosen := by
    intro chosen h
    cases policy with
    | firstDeclared =>
        obtain ⟨later, rfl⟩ := List.head?_eq_some_iff.mp h
        exact .firstDeclared
    | mostParameters => exact selects_of_choose?_mostParameters h
  refine ⟨hselects, fun h => ?_⟩
  cases hother : policy.choose? candidates with
  | none =>
      rw [(policy.choose?_eq_none_iff candidates).mp hother] at h
      cases h.mem
  | some other => rw [(hselects hother).unique h]

end Wiring.ConstructorPolicy
