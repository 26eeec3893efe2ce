import Wiring.Proofs.Elementwise
import Wiring.Proofs.Survey.Resolvable

namespace Wiring

variable {H : Host}

namespace Constructor

/-- The constructors have the same parameters, in some order. -/
def Reordered (c e : Constructor H) : Prop :=
  c.parameters.Perm e.parameters

theorem Reordered.arity_eq {c e : Constructor H} (h : c.Reordered e) : c.arity = e.arity :=
  List.Perm.length_eq h

end Constructor

/-- The registrations agree but for the order of the parameters of their constructors. -/
structure Registration.Reordered (r d : Registration H) : Prop where
  lifetime : r.lifetime = d.lifetime
  constructors : List.Forall₂ Constructor.Reordered r.constructors d.constructors

/-- Equal keys find registrations that agree but for the order of parameters. -/
def Registry.Reordered (registry other : Registry H) : Prop :=
  ∀ key, Option.Rel Registration.Reordered (registry.find? key) (other.find? key)

theorem Registration.Reordered.symm {r d : Registration H} (h : r.Reordered d) :
    d.Reordered r where
  lifetime := h.lifetime.symm
  constructors := List.Forall₂.flip (h.constructors.imp fun _ _ hperm => List.Perm.symm hperm)

theorem Registry.Reordered.symm {registry other : Registry H} (h : registry.Reordered other) :
    other.Reordered registry := by
  intro key
  have hkey := h key
  generalize registry.find? key = found, other.find? key = counterpart at hkey
  cases hkey with
  | none => exact .none
  | some hsame => exact .some hsame.symm

theorem ConstructorPolicy.choose?_reordered (policy : ConstructorPolicy)
    {candidates others : List (Constructor H)}
    (h : List.Forall₂ Constructor.Reordered candidates others) :
    Option.Rel Constructor.Reordered (policy.choose? candidates) (policy.choose? others) := by
  cases policy with
  | firstDeclared =>
      cases h with
      | nil => exact .none
      | cons hhead _ => exact .some hhead
  | mostParameters =>
      refine List.rel_foldl ?_ Option.Rel.none h
      intro best other hbest candidate counterpart hcandidate
      cases hbest with
      | none => exact .some hcandidate
      | some hcurrent =>
          simp only [hcandidate.arity_eq, hcurrent.arity_eq]
          split
          · exact .some hcurrent
          · exact .some hcandidate

namespace Registry.Reordered

variable {registry other : Registry H} {policy : ConstructorPolicy} {options : Options}
  {r d e : Registration H}

theorem exists_find? (h : registry.Reordered other) {key : Key}
    (hd : other.find? key = some d) : ∃ r, registry.find? key = some r ∧ r.Reordered d :=
  exists_of_rel_some (hd ▸ h key)

theorem exists_choose? (hd : r.Reordered d) {chosen : Constructor H}
    (hchosen : policy.choose? d.constructors = some chosen) :
    ∃ mine, policy.choose? r.constructors = some mine ∧ mine.Reordered chosen :=
  exists_of_rel_some (hchosen ▸ policy.choose?_reordered hd.constructors)

theorem dependsOn (h : registry.Reordered other) (hd : r.Reordered d)
    (he : other.DependsOn policy d e) : ∃ c, registry.DependsOn policy r c ∧ c.Reordered e := by
  obtain ⟨chosen, hchosen, parameter, hparameter, hfind⟩ := he
  obtain ⟨mine, hmine, hperm⟩ := exists_choose? hd hchosen
  obtain ⟨c, hc, hsame⟩ := h.exists_find? hfind
  exact ⟨c, ⟨mine, hmine, parameter, hperm.mem_iff.mpr hparameter, hc⟩, hsame⟩

theorem transGen (h : registry.Reordered other) (hd : r.Reordered d)
    (he : Relation.TransGen (other.DependsOn policy) d e) :
    ∃ c, Relation.TransGen (registry.DependsOn policy) r c ∧ c.Reordered e := by
  induction he with
  | single hstep =>
      obtain ⟨c, hc, hsame⟩ := h.dependsOn hd hstep
      exact ⟨c, .single hc, hsame⟩
  | tail _ hstep ih =>
      obtain ⟨b, hb, hbsame⟩ := ih
      obtain ⟨c, hc, hsame⟩ := h.dependsOn hbsame hstep
      exact ⟨c, hb.tail hc, hsame⟩

theorem within {depth : Nat} (h : registry.Reordered other) (hd : r.Reordered d)
    (hr : registry.Within policy depth r) : other.Within policy depth d := by
  induction depth generalizing r d with
  | zero => exact hr
  | succ depth ih =>
      intro e he
      obtain ⟨c, hc, hsame⟩ := h.dependsOn hd he
      exact ih hsame (hr c hc)

theorem plannable (h : registry.Reordered other) (hd : r.Reordered d)
    (hr : registry.Plannable options r) : other.Plannable options d := by
  induction hr generalizing d with
  | @intro r mine hmine hpresent hbelow ih =>
      obtain ⟨chosen, hchosen, hperm⟩ := exists_choose? hd.symm hmine
      refine .intro hchosen ?_ ?_
      · intro parameter hparameter hnone
        refine hpresent parameter (hperm.mem_iff.mp hparameter) ?_
        rw [← Option.not_isSome_iff_eq_none, Option.isSome_iff_exists]
        rintro ⟨c, hc⟩
        obtain ⟨e, he, -⟩ := h.symm.exists_find? hc
        rw [hnone] at he
        cases he
      · intro parameter hparameter e he
        obtain ⟨c, hc, hsame⟩ := h.exists_find? he
        exact ih parameter (hperm.mem_iff.mp hparameter) c hc hsame

theorem of_front
    (hfront : List.Forall₂ (fun r d : Registration H => r.key = d.key ∧ r.Reordered d)
      registry.front other.front)
    (hrest : registry.rest = ∅) (hother : other.rest = ∅) : registry.Reordered other := by
  intro key
  unfold Registry.find?
  rw [hrest, hother]
  generalize registry.front = front, other.front = counterpart at hfront
  induction hfront with
  | nil => simp
  | @cons r d _ _ hhead _ ih =>
      obtain ⟨hkey, hsame⟩ := hhead
      rw [List.find?_cons, List.find?_cons, hkey]
      cases d.key == key with
      | true => exact .some hsame
      | false => exact ih

end Registry.Reordered

end Wiring
