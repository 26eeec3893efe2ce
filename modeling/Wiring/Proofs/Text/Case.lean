import Wiring.Text.Case
import Mathlib

namespace Wiring.Text

variable {s t : String} {c : Char}

def IsAscii (s : String) : Prop :=
  ∀ c ∈ s.toList, c.toNat < 0x80

instance : Decidable (IsAscii s) :=
  List.decidableBAll (fun c : Char => c.toNat < 0x80) s.toList

theorem toNat_toUpper_lt (h : c.toNat < 0x80) : c.toUpper.toNat < 0x80 := by
  by_cases hlower : c.isLower
  · rw [Char.toUpper_eq_of_isLower hlower, Char.toNat_ofNat]
    split <;> omega
  · rwa [Char.toUpper_eq_of_not_isLower hlower]

theorem toNat_toLower_lt (h : c.toNat < 0x80) : c.toLower.toNat < 0x80 := by
  by_cases hupper : c.isUpper
  · rw [Char.toLower_eq_of_isUpper hupper, Char.toNat_ofNat]
    have hbound : c.toNat ≤ 90 := by
      simp only [Char.isUpper, decide_eq_true_eq] at hupper
      exact hupper.2
    split <;> omega
  · rwa [Char.toLower_eq_of_not_isUpper hupper]

namespace IsAscii

theorem append_iff : IsAscii (s ++ t) ↔ IsAscii s ∧ IsAscii t := by
  simp [IsAscii, or_imp, forall_and]

theorem toList_upper (h : IsAscii s) : (upper s).toList = s.toList.map Char.toUpper := by
  rw [Text.upper, String.toList_ofList, ← List.flatMap_singleton' (s.toList.map _),
    List.flatMap_map]
  exact List.flatMap_congr fun c hc => upperChar_of_ascii (h c hc)

theorem toList_lower (h : IsAscii s) : (lower s).toList = s.toList.map Char.toLower := by
  have hafter : ∀ (rest before : List Char), (∀ c ∈ rest, c.toNat < 0x80) →
      lowerAfter before rest = rest.map Char.toLower := by
    intro rest
    induction rest with
    | nil => exact fun _ _ => rfl
    | cons c rest ih =>
        intro before hrest
        have hc : c.toNat < 0x80 := hrest c List.mem_cons_self
        have hsigma : ¬ (c == 'Σ') = true := by
          intro heq
          rw [eq_of_beq heq] at hc
          exact absurd hc (by decide)
        rw [lowerAfter, if_neg hsigma, lowerChar_of_ascii hc,
          ih (c :: before) fun c hc => hrest c (List.mem_cons_of_mem _ hc)]
        rfl
  rw [Text.lower, String.toList_ofList]
  exact hafter s.toList [] h

protected theorem upper (h : IsAscii s) : IsAscii (upper s) := by
  intro c hc
  rw [h.toList_upper] at hc
  obtain ⟨d, hd, rfl⟩ := List.mem_map.mp hc
  exact toNat_toUpper_lt (h d hd)

protected theorem lower (h : IsAscii s) : IsAscii (lower s) := by
  intro c hc
  rw [h.toList_lower] at hc
  obtain ⟨d, hd, rfl⟩ := List.mem_map.mp hc
  exact toNat_toLower_lt (h d hd)

theorem upper_lower (h : IsAscii s) : upper (lower s) = upper s := by
  apply String.toList_injective
  rw [h.lower.toList_upper, h.toList_lower, h.toList_upper, List.map_map]
  exact List.map_congr_left fun c _ => c.toUpper_toLower_eq_toUpper

theorem lower_upper (h : IsAscii s) : lower (upper s) = lower s := by
  apply String.toList_injective
  rw [h.upper.toList_lower, h.toList_upper, h.toList_lower, List.map_map]
  exact List.map_congr_left fun c _ => c.toLower_toUpper_eq_toLower

theorem lower_lower (h : IsAscii s) : lower (lower s) = lower s := by
  rw [← h.lower.lower_upper, h.upper_lower, h.lower_upper]

end IsAscii

end Wiring.Text
