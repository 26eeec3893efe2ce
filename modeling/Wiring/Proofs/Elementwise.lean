import Mathlib.Data.List.Forall2

namespace Wiring

section

variable {α β γ : Type} {R S : α → β → Prop}

theorem exists_of_forall₂_left {as : List α} {bs : List β} (h : List.Forall₂ R as bs) :
    ∀ a ∈ as, ∃ b ∈ bs, R a b := by
  induction h with
  | nil => exact List.forall_mem_nil _
  | @cons a b as bs hab _ ih =>
      refine List.forall_mem_cons.mpr ⟨⟨b, by simp, hab⟩, fun other hother => ?_⟩
      obtain ⟨found, hfound, hrel⟩ := ih other hother
      exact ⟨found, by simp [hfound], hrel⟩

theorem exists_of_forall₂_right {as : List α} {bs : List β} (h : List.Forall₂ R as bs) :
    ∀ b ∈ bs, ∃ a ∈ as, R a b :=
  exists_of_forall₂_left (List.Forall₂.flip (R := flip R) h)

theorem forall₂_join {Q : α → γ → Prop} {T : β → γ → Prop} {as : List α} {bs : List β}
    {cs : List γ} (hb : List.Forall₂ R as bs) (hc : List.Forall₂ Q as cs)
    (hjoin : ∀ a b c, R a b → Q a c → T b c) : List.Forall₂ T bs cs := by
  induction hb generalizing cs with
  | nil =>
      cases hc
      exact .nil
  | cons hab _ ih =>
      cases hc with
      | cons hac hrest => exact .cons (hjoin _ _ _ hab hac) (ih hrest)

theorem exists_of_rel_some {found : Option α} {b : β} (h : Option.Rel R found (some b)) :
    ∃ a, found = some a ∧ R a b := by
  cases h with
  | some hab => exact ⟨_, rfl, hab⟩

theorem rel_imp {found : Option α} {other : Option β} (h : Option.Rel R found other)
    (himp : ∀ a b, R a b → S a b) : Option.Rel S found other := by
  cases h with
  | none => exact .none
  | some hab => exact .some (himp _ _ hab)

end

section

variable {α β : Type} {f : α → Option β} {as : List α}

theorem mapM_eq_some_iff {bs : List β} :
    as.mapM f = some bs ↔ List.Forall₂ (fun a b => f a = some b) as bs := by
  induction as generalizing bs with
  | nil => simp [eq_comm]
  | cons a rest ih =>
      rw [List.mapM_cons, List.forall₂_cons_left_iff]
      simp only [Option.bind_eq_bind, Option.bind_eq_some_iff, Option.pure_def, Option.some.injEq,
        ih]
      constructor
      · rintro ⟨b, hb, others, hothers, rfl⟩
        exact ⟨b, others, hb, hothers, rfl⟩
      · rintro ⟨b, others, hb, hothers, rfl⟩
        exact ⟨b, hb, others, hothers, rfl⟩

theorem exists_mapM_eq_some (h : ∀ a ∈ as, ∃ b, f a = some b) : ∃ bs, as.mapM f = some bs := by
  induction as with
  | nil => exact ⟨[], rfl⟩
  | cons a rest ih =>
      obtain ⟨b, hb⟩ := h a (by simp)
      obtain ⟨others, hothers⟩ := ih fun other hother => h other (by simp [hother])
      exact ⟨b :: others, mapM_eq_some_iff.mpr (.cons hb (mapM_eq_some_iff.mp hothers))⟩

end

theorem flatMap_eq_flatMap_filter {α β : Type} {keep : α → Bool} {f g : α → List β} {as : List α}
    (h : ∀ a ∈ as, f a = if keep a then g a else []) :
    as.flatMap f = (as.filter keep).flatMap g := by
  induction as with
  | nil => rfl
  | cons a rest ih =>
      rw [List.flatMap_cons, h a (by simp), ih fun other hother => h other (by simp [hother]),
        List.filter_cons]
      split <;> rfl

theorem filterMap_ite_eq_singleton {α β : Type} [DecidableEq α] {as : List α} {a : α}
    (hnodup : as.Nodup) (ha : a ∈ as) (b : β) :
    as.filterMap (fun other => if other = a then some b else none) = [b] := by
  induction as with
  | nil => cases ha
  | cons first rest ih =>
      rw [List.nodup_cons] at hnodup
      by_cases hfirst : first = a
      · subst hfirst
        have hrest : rest.filterMap (fun other => if other = first then some b else none) = [] := by
          refine List.filterMap_eq_nil_iff.mpr fun other hother => if_neg ?_
          rintro rfl
          exact hnodup.1 hother
        simp [hrest]
      · have hmem : a ∈ rest := (List.mem_cons.mp ha).resolve_left (Ne.symm hfirst)
        simp [hfirst, ih hnodup.2 hmem]

end Wiring
