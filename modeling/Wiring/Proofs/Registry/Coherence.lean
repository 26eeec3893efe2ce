import Wiring.Registry
import Wiring.Proofs.Service.Key
import Mathlib.Data.List.Perm.Subperm
import Mathlib.Data.List.Nodup
import Mathlib.Order.Basic

namespace Wiring

namespace Registration

variable {H : Host} {r : Registration H} {cell : Nat}

theorem cell?_eq_some_iff : r.cell? = some cell ↔ r.lifetime = .singleton ∧ r.sequence = cell := by
  unfold cell?
  cases r.lifetime <;> simp

theorem sequence_of_cell? (h : r.cell? = some cell) : r.sequence = cell :=
  (cell?_eq_some_iff.mp h).2

theorem cell?_of_given {object : Instance H} (h : r.givenInstance = some object) :
    r.cell? = some r.sequence := by
  obtain ⟨key, provision, sequence⟩ := r
  cases provision with
  | construct => cases h
  | given => rfl

end Registration

namespace Registry

variable {H : Host}

/-- The registries that registering leads to: registrations are stored one after the other, and the
registry may be frozen. -/
inductive Assembled : Registry H → Prop
  | withCapacity (capacity : Nat) : Assembled (withCapacity capacity)
  | store {r : Registry H} (key : Key) (provision : Provision H) (hr : Assembled r) :
      Assembled (r.store key provision)
  | freeze {r : Registry H} (hr : Assembled r) : Assembled r.freeze

/-- What keeps the two halves of a registry apart and tells its registrations apart. -/
structure Coherent (r : Registry H) : Prop where
  front_apart : r.front.Pairwise fun a b => ¬ (a.key == b.key) = true
  front_not_rest : ∀ a ∈ r.front, r.rest[a.key]? = none
  rest_key : ∀ {key : Key} {a}, r.rest[key]? = some a → (a.key == key) = true
  rest_full : ∀ {key : Key} {a}, r.rest[key]? = some a → r.capacity ≤ r.front.length
  sequence_lt : ∀ a ∈ r.toList, a.sequence < r.nextSequence
  sequence_inj : ∀ a ∈ r.toList, ∀ b ∈ r.toList, a.sequence = b.sequence → a = b

theorem values_eq_map_toList {α : Type} (t : Std.TreeMap Key α Key.cmp) :
    t.values = t.toList.map Prod.snd := by
  change t.inner.inner.values =
    (Std.DTreeMap.Internal.Impl.Const.toList t.inner.inner).map Prod.snd
  rw [Std.DTreeMap.Internal.Impl.values_eq_map_snd,
    Std.DTreeMap.Internal.Impl.Const.toList_eq_toListModel_map]
  simp

theorem mem_values_iff {α : Type} {t : Std.TreeMap Key α Key.cmp} {a : α} :
    a ∈ t.values ↔ ∃ key : Key, t[key]? = some a := by
  rw [values_eq_map_toList, List.mem_map]
  constructor
  · rintro ⟨⟨key, value⟩, hmem, rfl⟩
    exact ⟨key, (Std.TreeMap.mem_toList_iff_getKey?_eq_some_and_getElem?_eq_some.mp hmem).2⟩
  · rintro ⟨key, hkey⟩
    obtain ⟨stored, -, hmem⟩ :=
      Std.TreeMap.getElem?_eq_some_iff_exists_compare_eq_eq_and_mem_toList.mp hkey
    exact ⟨(stored, a), hmem, rfl⟩

theorem mem_toList_iff {r : Registry H} {a : Registration H} :
    a ∈ r.toList ↔ a ∈ r.front ∨ ∃ key : Key, r.rest[key]? = some a := by
  rw [toList, List.mem_append, mem_values_iff]

theorem nextSequence_store (r : Registry H) (key : Key) (provision : Provision H) :
    (r.store key provision).nextSequence = r.nextSequence + 1 := by
  unfold store
  split
  · rfl
  · split <;> rfl

theorem mem_toList_store {r : Registry H} {key : Key} {provision : Provision H}
    {a : Registration H} (ha : a ∈ (r.store key provision).toList) :
    a = ⟨key, provision, r.nextSequence⟩ ∨ a ∈ r.toList := by
  rw [mem_toList_iff (r := r)]
  unfold store at ha
  split at ha
  · rcases mem_toList_iff.mp ha with hfront | hrest
    · obtain ⟨old, hold, rfl⟩ := List.mem_map.mp hfront
      split
      · exact Or.inl rfl
      · exact Or.inr (Or.inl hold)
    · exact Or.inr (Or.inr hrest)
  · split at ha
    · rcases mem_toList_iff.mp ha with hfront | hrest
      · rcases List.mem_append.mp hfront with hold | hnew
        · exact Or.inr (Or.inl hold)
        · exact Or.inl (List.mem_singleton.mp hnew)
      · exact Or.inr (Or.inr hrest)
    · rcases mem_toList_iff.mp ha with hfront | ⟨other, hother⟩
      · exact Or.inr (Or.inl hfront)
      · rw [Std.TreeMap.getElem?_insert] at hother
        split at hother
        · exact Or.inl (Option.some.inj hother).symm
        · exact Or.inr (Or.inr ⟨other, hother⟩)

theorem mem_toList_freeze {r : Registry H} {a : Registration H} :
    a ∈ r.freeze.toList ↔ a ∈ r.toList := by
  have hperm : r.freeze.front.Perm r.front := sorted_perm _ _
  rw [mem_toList_iff, mem_toList_iff, hperm.mem_iff]
  rfl

theorem length_toList (r : Registry H) : r.toList.length = r.size := by
  rw [toList, List.length_append, values_eq_map_toList, List.length_map, Std.TreeMap.length_toList]
  rfl

theorem length_le_size {r : Registry H} {registrations : List (Registration H)}
    (hnodup : registrations.Nodup) (hmem : ∀ a ∈ registrations, a ∈ r.toList) :
    registrations.length ≤ r.size := by
  rw [← length_toList]
  exact (List.subperm_of_subset hnodup hmem).length_le

theorem find?_congr (r : Registry H) {a b : Key} (hab : (a == b) = true) :
    r.find? a = r.find? b := by
  have hfront : (fun registration : Registration H => registration.key == a) =
      fun registration => registration.key == b := by
    funext registration
    exact Key.beq_congr_right hab registration.key
  rw [find?, find?, hfront, Std.TreeMap.getElem?_congr (Key.cmp_eq_iff.mpr hab)]

theorem find?_eq_some_iff_front_or_rest {r : Registry H} {key : Key} {a : Registration H} :
    r.find? key = some a ↔
      r.front.find? (·.key == key) = some a ∨
        r.front.find? (·.key == key) = none ∧ r.rest[key]? = some a := by
  unfold find?
  cases hfront : r.front.find? (·.key == key) with
  | none => simp
  | some found => simp

namespace Coherent

theorem withCapacity (capacity : Nat) : Coherent (withCapacity (H := H) capacity) where
  front_apart := List.Pairwise.nil
  front_not_rest := by simp [Registry.withCapacity]
  rest_key := by simp [Registry.withCapacity]
  rest_full := by simp [Registry.withCapacity]
  sequence_lt := by
    intro a ha
    simp [mem_toList_iff, Registry.withCapacity] at ha
  sequence_inj := by
    intro a ha
    simp [mem_toList_iff, Registry.withCapacity] at ha

variable {r : Registry H}

theorem find?_key (hr : r.Coherent) {key : Key} {a : Registration H}
    (ha : r.find? key = some a) : (a.key == key) = true := by
  rcases find?_eq_some_iff_front_or_rest.mp ha with hfront | ⟨-, hrest⟩
  · exact List.find?_some (p := fun registration : Registration H => registration.key == key) hfront
  · exact hr.rest_key hrest

theorem mem_of_find? {key : Key} {a : Registration H} (ha : r.find? key = some a) :
    a ∈ r.toList := by
  rw [mem_toList_iff]
  rcases find?_eq_some_iff_front_or_rest.mp ha with hfront | ⟨-, hrest⟩
  · exact Or.inl (List.mem_of_find?_eq_some hfront)
  · exact Or.inr ⟨key, hrest⟩

theorem find?_front (hr : r.Coherent) {a : Registration H} (ha : a ∈ r.front) :
    r.front.find? (·.key == a.key) = some a := by
  have happart := hr.front_apart
  generalize r.front = front at ha happart
  induction front with
  | nil => cases ha
  | cons b front ih =>
      rw [List.pairwise_cons] at happart
      rcases List.mem_cons.mp ha with rfl | ha
      · simp
      · have hne : ¬ (b.key == a.key) = true := happart.1 a ha
        rw [List.find?_cons, Bool.eq_false_iff.mpr hne]
        exact ih ha happart.2

theorem nodup_toList (hr : r.Coherent) : r.toList.Nodup := by
  have hfront : r.front.Nodup := by
    apply hr.front_apart.imp
    rintro a b happart rfl
    exact happart BEq.rfl
  have hrest : r.rest.values.Nodup := by
    rw [values_eq_map_toList, List.Nodup, List.pairwise_map]
    apply Std.TreeMap.distinct_keys_toList.imp_of_mem
    rintro ⟨key, a⟩ ⟨other, b⟩ ha hb hdistinct rfl
    have hkey := (Std.TreeMap.mem_toList_iff_getKey?_eq_some_and_getElem?_eq_some.mp ha).2
    have hother := (Std.TreeMap.mem_toList_iff_getKey?_eq_some_and_getElem?_eq_some.mp hb).2
    exact hdistinct (Key.cmp_eq_iff.mpr
      (Key.beq_trans (Key.beq_symm (hr.rest_key hkey)) (hr.rest_key hother)))
  refine List.nodup_append.mpr ⟨hfront, hrest, ?_⟩
  rintro a ha b hb rfl
  obtain ⟨key, hkey⟩ := mem_values_iff.mp hb
  have hnone := hr.front_not_rest a ha
  rw [Std.TreeMap.getElem?_congr (Key.cmp_eq_iff.mpr (hr.rest_key hkey)), hkey] at hnone
  cases hnone

theorem find?_self (hr : r.Coherent) {a : Registration H} (ha : a ∈ r.toList) :
    r.find? a.key = some a := by
  rw [find?_eq_some_iff_front_or_rest]
  rcases mem_toList_iff.mp ha with hfront | ⟨key, hrest⟩
  · exact Or.inl (hr.find?_front hfront)
  · have hcongr : r.rest[a.key]? = some a := by
      rw [Std.TreeMap.getElem?_congr (Key.cmp_eq_iff.mpr (hr.rest_key hrest))]
      exact hrest
    refine Or.inr ⟨?_, hcongr⟩
    rw [List.find?_eq_none]
    intro b hb hkey
    have hnone := hr.front_not_rest b hb
    rw [Std.TreeMap.getElem?_congr (Key.cmp_eq_iff.mpr hkey), hcongr] at hnone
    cases hnone

theorem sequences_store (hr : r.Coherent) (key : Key) (provision : Provision H) :
    (∀ a ∈ (r.store key provision).toList, a.sequence < (r.store key provision).nextSequence) ∧
      ∀ a ∈ (r.store key provision).toList, ∀ b ∈ (r.store key provision).toList,
        a.sequence = b.sequence → a = b := by
  have hlt := hr.sequence_lt
  rw [nextSequence_store]
  constructor
  · intro a ha
    rcases mem_toList_store ha with rfl | hold
    · exact Nat.lt_succ_self _
    · exact Nat.lt_succ_of_lt (hlt a hold)
  · intro a ha b hb hab
    rcases mem_toList_store ha with rfl | haold
    · rcases mem_toList_store hb with rfl | hbold
      · rfl
      · exact absurd hab.symm (Nat.ne_of_lt (hlt b hbold))
    · rcases mem_toList_store hb with rfl | hbold
      · exact absurd hab (Nat.ne_of_lt (hlt a haold))
      · exact hr.sequence_inj a haold b hbold hab

theorem store_replacing (hr : r.Coherent) {key : Key} (provision : Provision H)
    (hkey : r.front.any (·.key == key) = true) : (r.store key provision).Coherent := by
  let fresh : Registration H := ⟨key, provision, r.nextSequence⟩
  let exchange : Registration H → Registration H := fun old => if old.key == key then fresh else old
  have hexchange : ∀ old, ((exchange old).key == old.key) = true := by
    intro old
    by_cases hold : (old.key == key) = true
    · simp only [exchange, hold, if_true]
      exact Key.beq_symm hold
    · simp only [exchange, hold]
      exact BEq.rfl
  have hstore : r.store key provision =
      { r with front := r.front.map exchange, nextSequence := r.nextSequence + 1 } := by
    rw [store, if_pos hkey]
  obtain ⟨hlt, hinj⟩ := hr.sequences_store key provision
  refine ⟨?_, ?_, ?_, ?_, hlt, hinj⟩
  · rw [hstore]
    refine List.pairwise_map.mpr (hr.front_apart.imp ?_)
    intro a b hab hnew
    exact hab (Key.beq_trans (Key.beq_symm (hexchange a)) (Key.beq_trans hnew (hexchange b)))
  · rw [hstore]
    intro a ha
    obtain ⟨old, hold, rfl⟩ := List.mem_map.mp ha
    rw [Std.TreeMap.getElem?_congr (Key.cmp_eq_iff.mpr (hexchange old))]
    exact hr.front_not_rest old hold
  · rw [hstore]
    exact hr.rest_key
  · rw [hstore]
    intro key a ha
    simpa using hr.rest_full ha

theorem store_appending (hr : r.Coherent) {key : Key} (provision : Provision H)
    (hkey : ¬ r.front.any (·.key == key) = true) (hroom : r.front.length < r.capacity) :
    (r.store key provision).Coherent := by
  let fresh : Registration H := ⟨key, provision, r.nextSequence⟩
  have hstore : r.store key provision =
      { r with front := r.front ++ [fresh], nextSequence := r.nextSequence + 1 } := by
    rw [store, if_neg hkey, if_pos hroom]
  have hrest : ∀ other : Key, r.rest[other]? = none := by
    intro other
    cases hother : r.rest[other]? with
    | none => rfl
    | some a =>
        have := hr.rest_full hother
        omega
  obtain ⟨hlt, hinj⟩ := hr.sequences_store key provision
  refine ⟨?_, ?_, ?_, ?_, hlt, hinj⟩
  · rw [hstore]
    refine List.pairwise_append.mpr ⟨hr.front_apart, List.pairwise_singleton _ _, ?_⟩
    intro a ha b hb hab
    rw [List.mem_singleton] at hb
    subst hb
    exact hkey (List.any_eq_true.mpr ⟨a, ha, hab⟩)
  · rw [hstore]
    exact fun a _ => hrest a.key
  · rw [hstore]
    exact hr.rest_key
  · rw [hstore]
    intro other a ha
    rw [hrest other] at ha
    cases ha

theorem store_overflowing (hr : r.Coherent) {key : Key} (provision : Provision H)
    (hkey : ¬ r.front.any (·.key == key) = true) (hroom : ¬ r.front.length < r.capacity) :
    (r.store key provision).Coherent := by
  let fresh : Registration H := ⟨key, provision, r.nextSequence⟩
  have hstore : r.store key provision =
      { r with rest := r.rest.insert key fresh, nextSequence := r.nextSequence + 1 } := by
    rw [store, if_neg hkey, if_neg hroom]
  have hrest : ∀ {other : Key} {a}, (r.rest.insert key fresh)[other]? = some a →
      (key == other) = true ∧ a = fresh ∨ r.rest[other]? = some a := by
    intro other a ha
    rw [Std.TreeMap.getElem?_insert] at ha
    split at ha
    next heq => exact Or.inl ⟨Key.cmp_eq_iff.mp heq, (Option.some.inj ha).symm⟩
    next => exact Or.inr ha
  obtain ⟨hlt, hinj⟩ := hr.sequences_store key provision
  refine ⟨?_, ?_, ?_, ?_, hlt, hinj⟩
  · rw [hstore]
    exact hr.front_apart
  · rw [hstore]
    intro a ha
    have hne : ¬ Key.cmp key a.key = .eq := by
      intro heq
      exact hkey (List.any_eq_true.mpr ⟨a, ha, Key.beq_symm (Key.cmp_eq_iff.mp heq)⟩)
    rw [Std.TreeMap.getElem?_insert, if_neg hne]
    exact hr.front_not_rest a ha
  · rw [hstore]
    intro other a ha
    rcases hrest ha with ⟨heq, rfl⟩ | hold
    · exact heq
    · exact hr.rest_key hold
  · rw [hstore]
    intro other a _
    exact Nat.not_lt.mp hroom

theorem store (hr : r.Coherent) (key : Key) (provision : Provision H) :
    (r.store key provision).Coherent := by
  by_cases hkey : r.front.any (·.key == key) = true
  · exact hr.store_replacing provision hkey
  · by_cases hroom : r.front.length < r.capacity
    · exact hr.store_appending provision hkey hroom
    · exact hr.store_overflowing provision hkey hroom

theorem freeze (hr : r.Coherent) : r.freeze.Coherent := by
  have hperm : r.freeze.front.Perm r.front := sorted_perm _ _
  refine ⟨?_, ?_, hr.rest_key, ?_, ?_, ?_⟩
  · apply hr.front_apart.perm hperm.symm
    intro a b hab hba
    exact hab (Key.beq_symm hba)
  · intro a ha
    exact hr.front_not_rest a (hperm.mem_iff.mp ha)
  · intro key a ha
    rw [hperm.length_eq]
    exact hr.rest_full ha
  · intro a ha
    exact hr.sequence_lt a (mem_toList_freeze.mp ha)
  · intro a ha b hb
    exact hr.sequence_inj a (mem_toList_freeze.mp ha) b (mem_toList_freeze.mp hb)

end Coherent

namespace Assembled

variable {r : Registry H}

theorem coherent (hr : r.Assembled) : r.Coherent := by
  induction hr with
  | withCapacity capacity => exact Coherent.withCapacity capacity
  | store key provision _ ih => exact ih.store key provision
  | freeze _ ih => exact ih.freeze

theorem find?_eq_some_iff (hr : r.Assembled) {key : Key} {a : Registration H} :
    r.find? key = some a ↔ a ∈ r.toList ∧ (a.key == key) = true := by
  constructor
  · intro ha
    exact ⟨Coherent.mem_of_find? ha, hr.coherent.find?_key ha⟩
  · rintro ⟨hmem, hkey⟩
    rw [← r.find?_congr hkey]
    exact hr.coherent.find?_self hmem

end Assembled

end Registry

end Wiring
