import Mathlib.Data.List.Induction
import Mathlib.Data.Nat.Digits.Defs
import Wiring.Settings.Value

namespace Wiring

/-- The text that decimal digits make, most significant first. -/
def spell (digits : List (Fin 10)) : List Char :=
  digits.map fun d : Fin 10 => Nat.digitChar d.val

/-- The number that decimal digits make, most significant first. -/
def worth (digits : List (Fin 10)) : Nat :=
  Nat.ofDigits 10 (digits.map Fin.val).reverse

/-- The text is a decimal numeral of the integer: at least one digit, after a sign or none. -/
inductive Numeral : List Char → Int → Prop where
  | unsigned {digits} (h : digits ≠ []) : Numeral (spell digits) (worth digits)
  | positive {digits} (h : digits ≠ []) : Numeral ('+' :: spell digits) (worth digits)
  | negative {digits} (h : digits ≠ []) : Numeral ('-' :: spell digits) (-worth digits)

variable {cs : List Char} {c : Char} {digits : List (Fin 10)} {n : Nat} {z : Int}

theorem isDigit_of_mem_spell (h : c ∈ spell digits) : c.isDigit := by
  obtain ⟨d, -, rfl⟩ := List.mem_map.mp h
  rw [Nat.isDigit_digitChar]
  exact decide_eq_true d.isLt

theorem exists_spell (h : ∀ c ∈ cs, c.isDigit) : ∃ digits, cs = spell digits := by
  induction cs with
  | nil => exact ⟨[], rfl⟩
  | cons c cs ih =>
      obtain ⟨hdigit, hrest⟩ := List.forall_mem_cons.mp h
      obtain ⟨digits, rfl⟩ := ih hrest
      have hrange : 48 ≤ c.toNat ∧ c.toNat ≤ 57 := Char.isDigit_iff_toNat.mp hdigit
      have hlt : c.toNat - 48 < 10 := by omega
      have hchar : Nat.digitChar (c.toNat - 48) = c := by
        apply Char.toNat_inj.mp
        rw [Nat.toNat_digitChar_of_lt_ten hlt]
        omega
      exact ⟨⟨c.toNat - 48, hlt⟩ :: digits, by simp [spell, hchar]⟩

theorem foldl_spell (digits : List (Fin 10)) :
    (spell digits).foldl (fun value c => 10 * value + (c.toNat - '0'.toNat)) 0 = worth digits := by
  induction digits using List.reverseRecOn with
  | nil => rfl
  | append_singleton digits d ih =>
      have hdigit : (Nat.digitChar d.val).toNat - '0'.toNat = d.val :=
        Nat.toNat_digitChar_sub_48_of_lt_ten d.isLt
      have hspell : spell (digits ++ [d]) = spell digits ++ [Nat.digitChar d.val] := by simp [spell]
      have hworth : worth (digits ++ [d]) = d.val + 10 * worth digits := by
        simp [worth, Nat.ofDigits_cons]
      rw [hspell, hworth, List.foldl_append, ih, List.foldl_cons, List.foldl_nil, hdigit,
        Nat.add_comm]

theorem decimal?_spell (h : digits ≠ []) : decimal? (spell digits) = some (worth digits) := by
  have hne : (spell digits).isEmpty = false := by
    rw [List.isEmpty_eq_false_iff]
    exact List.map_eq_nil_iff.not.mpr h
  have hall : (spell digits).all Char.isDigit :=
    List.all_eq_true.mpr fun _ => isDigit_of_mem_spell
  rw [decimal?, hne, hall, foldl_spell]
  rfl

theorem decimal?_eq_some_iff :
    decimal? cs = some n ↔ ∃ digits, digits ≠ [] ∧ cs = spell digits ∧ worth digits = n := by
  constructor
  · intro h
    unfold decimal? at h
    split at h
    next => cases h
    next hdigits =>
      simp only [Bool.or_eq_true, Bool.not_eq_true', not_or, Bool.not_eq_false] at hdigits
      obtain ⟨digits, rfl⟩ := exists_spell (List.all_eq_true.mp hdigits.2)
      rw [foldl_spell] at h
      refine ⟨digits, ?_, rfl, Option.some.inj h⟩
      rintro rfl
      exact hdigits.1 rfl
  · rintro ⟨digits, hne, rfl, rfl⟩
    exact decimal?_spell hne

theorem decimal?_toString (n : Nat) : decimal? (toString n).toList = some n := by
  have hne : (Nat.toDigits 10 n).isEmpty = false := by simp [Nat.toDigits_ne_nil]
  have hall : (Nat.toDigits 10 n).all Char.isDigit :=
    List.all_eq_true.mpr fun _ => Nat.isDigit_of_mem_toDigits (by decide) (by decide)
  rw [Nat.toString_eq_ofList_toDigits, String.toList_ofList, decimal?, hne, hall,
    ← Nat.ofDigitChars_eq_foldl, Nat.ofDigitChars_ten_toDigits]
  rfl

namespace Numeral

theorem negative_iff :
    Numeral ('-' :: cs) z ↔ ∃ m : Nat, decimal? cs = some m ∧ -(m : Int) = z := by
  simp only [decimal?_eq_some_iff]
  constructor
  · intro h
    generalize htext : '-' :: cs = text at h
    cases h with
    | unsigned _ => exact absurd (isDigit_of_mem_spell (htext ▸ List.mem_cons_self)) (by decide)
    | positive _ => cases htext
    | negative hne =>
        obtain ⟨-, rfl⟩ := List.cons.inj htext
        exact ⟨_, ⟨_, hne, rfl, rfl⟩, rfl⟩
  · rintro ⟨_, ⟨digits, hne, rfl, rfl⟩, rfl⟩
    exact .negative hne

theorem positive_iff :
    Numeral ('+' :: cs) z ↔ ∃ m : Nat, decimal? cs = some m ∧ (m : Int) = z := by
  simp only [decimal?_eq_some_iff]
  constructor
  · intro h
    generalize htext : '+' :: cs = text at h
    cases h with
    | unsigned _ => exact absurd (isDigit_of_mem_spell (htext ▸ List.mem_cons_self)) (by decide)
    | negative _ => cases htext
    | positive hne =>
        obtain ⟨-, rfl⟩ := List.cons.inj htext
        exact ⟨_, ⟨_, hne, rfl, rfl⟩, rfl⟩
  · rintro ⟨_, ⟨digits, hne, rfl, rfl⟩, rfl⟩
    exact .positive hne

theorem unsigned_iff (hminus : ∀ rest, cs ≠ '-' :: rest) (hplus : ∀ rest, cs ≠ '+' :: rest) :
    Numeral cs z ↔ ∃ m : Nat, decimal? cs = some m ∧ (m : Int) = z := by
  simp only [decimal?_eq_some_iff]
  constructor
  · intro h
    cases h with
    | unsigned hne => exact ⟨_, ⟨_, hne, rfl, rfl⟩, rfl⟩
    | positive _ => exact absurd rfl (hplus _)
    | negative _ => exact absurd rfl (hminus _)
  · rintro ⟨_, ⟨digits, hne, rfl, rfl⟩, rfl⟩
    exact .unsigned hne

theorem toString (n : Nat) : Numeral (ToString.toString n).toList n := by
  obtain ⟨digits, hne, hspell, rfl⟩ := decimal?_eq_some_iff.mp (decimal?_toString n)
  rw [hspell]
  exact .unsigned hne

end Numeral

theorem bounded_eq_some_iff {v : Int64} :
    (if Int64.minValue.toInt ≤ z ∧ z ≤ Int64.maxValue.toInt then some (Int64.ofInt z) else none) =
      some v ↔ z = v.toInt := by
  constructor
  · intro h
    split at h
    next hrange =>
      rw [← Option.some.inj h, Int64.toInt_ofInt_of_le hrange.1 (Int.lt_of_le_sub_one hrange.2)]
    next => cases h
  · rintro rfl
    rw [if_pos ⟨v.minValue_le_toInt, v.toInt_le⟩, Int64.ofInt_toInt]

theorem int64?_eq_some_iff {s : String} {v : Int64} :
    int64? s = some v ↔ Numeral s.toList v.toInt := by
  unfold int64?
  split
  next digits htext =>
    rw [htext, Numeral.negative_iff]
    simp only [Option.bind_eq_some_iff, bounded_eq_some_iff]
  next digits htext =>
    rw [htext, Numeral.positive_iff]
    simp only [Option.bind_eq_some_iff, bounded_eq_some_iff]
  next digits hminus hplus =>
    rw [Numeral.unsigned_iff hminus hplus]
    simp only [Option.bind_eq_some_iff, bounded_eq_some_iff]

namespace SettingValue

theorem parse_eq_integer_iff {raw : String} {v : Int64} :
    parse raw = .integer v ↔ Numeral raw.toList v.toInt := by
  rw [← int64?_eq_some_iff, parse]
  cases int64? raw with
  | some value => simp
  | none =>
      simp only [reduceCtorEq, iff_false]
      split
      next => simp
      next => split <;> simp

end SettingValue

end Wiring
