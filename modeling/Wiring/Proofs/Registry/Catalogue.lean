import Wiring.Proofs.Registry.Coherence
import Wiring.Registry.Descriptor
import Mathlib.Data.List.Pairwise

/-!
A registry as one list. The two halves of a registry, the replacements in them and the sorting at the
end cannot be seen from outside: a registry always shows the list of the registrations in the order in
which they were accepted, from which every later registration under an equal key has removed the
earlier one.
-/

namespace Wiring

variable {H : Host}

def KeysApart {α : Type} (key : α → Key) (as : List α) : Prop :=
  as.Pairwise fun a b => ¬ (key a == key b) = true

namespace KeysApart

variable {α : Type} {key : α → Key} {as : List α} {a b : α}

theorem eq_of_beq (h : KeysApart key as) (ha : a ∈ as) (hb : b ∈ as)
    (hkey : (key a == key b) = true) : a = b := by
  by_contra hne
  have : Std.Symm fun a b => ¬ (key a == key b) = true :=
    ⟨fun _ _ hab hba => hab (Key.beq_symm hba)⟩
  exact h.forall ha hb hne hkey

end KeysApart

/-- Registrations in the order in which they were accepted. -/
structure Catalogue (H : Host) where
  entries : List (Registration H)
  /-- How many registrations have been accepted, those included that were replaced later. -/
  accepted : Nat

namespace Catalogue

def empty : Catalogue H :=
  ⟨[], 0⟩

def find? (c : Catalogue H) (key : Key) : Option (Registration H) :=
  c.entries.find? (·.key == key)

/-- Appends a registration and removes the one under an equal key, if there is one. -/
def accept (c : Catalogue H) (key : Key) (provision : Provision H) : Catalogue H where
  entries := c.entries.filter (fun old => !(old.key == key)) ++ [⟨key, provision, c.accepted⟩]
  accepted := c.accepted + 1

theorem find?_eq_some_iff {c : Catalogue H} (h : KeysApart Registration.key c.entries) {key : Key}
    {a : Registration H} : c.find? key = some a ↔ a ∈ c.entries ∧ (a.key == key) = true := by
  constructor
  · intro ha
    exact ⟨List.mem_of_find?_eq_some ha, by simpa using List.find?_some ha⟩
  · rintro ⟨ha, hkey⟩
    have hsome : (c.entries.find? (·.key == key)).isSome := List.find?_isSome.mpr ⟨a, ha, hkey⟩
    obtain ⟨b, hb⟩ := Option.isSome_iff_exists.mp hsome
    have hsame : (b.key == key) = true := by simpa using List.find?_some hb
    rw [h.eq_of_beq ha (List.mem_of_find?_eq_some hb) (Key.beq_trans hkey (Key.beq_symm hsame))]
    exact hb

theorem find?_accept (c : Catalogue H) (key other : Key) (provision : Provision H) :
    (c.accept key provision).find? other =
      if key == other then some ⟨key, provision, c.accepted⟩ else c.find? other := by
  unfold find? accept
  rw [List.find?_append, List.find?_filter]
  by_cases hkey : (key == other) = true
  · have hnone : c.entries.find? (fun old => !(old.key == key) && old.key == other) = none := by
      refine List.find?_eq_none.mpr fun old _ => ?_
      rw [Key.beq_congr_right hkey]
      simp
    simp [hnone, hkey]
  · have hsame : (fun old : Registration H => !(old.key == key) && old.key == other) =
        fun old => old.key == other := by
      funext old
      by_cases hother : (old.key == other) = true
      · have hne : ¬ (old.key == key) = true := fun h =>
          hkey (Key.beq_trans (Key.beq_symm h) hother)
        simp [hother, hne]
      · simp [hother]
    simp [hsame, hkey]

end Catalogue

namespace Registry

variable {r : Registry H} {c : Catalogue H} {key : Key} {provision : Provision H}
  {a : Registration H}

theorem mem_toList_store_self (r : Registry H) (key : Key) (provision : Provision H) :
    ⟨key, provision, r.nextSequence⟩ ∈ (r.store key provision).toList := by
  rw [mem_toList_iff]
  unfold store
  split
  next hkey =>
    obtain ⟨old, hold, hsame⟩ := List.any_eq_true.mp hkey
    exact Or.inl (List.mem_map.mpr ⟨old, hold, if_pos hsame⟩)
  next =>
    split
    · exact Or.inl (List.mem_append_right _ (List.mem_singleton_self _))
    · exact Or.inr ⟨key, Std.TreeMap.getElem?_insert_self⟩

theorem mem_toList_store_of_ne (ha : a ∈ r.toList) (hne : ¬ (a.key == key) = true)
    (hr : r.Coherent) : a ∈ (r.store key provision).toList := by
  rw [mem_toList_iff] at ha ⊢
  unfold store
  split
  next =>
    refine ha.imp_left fun hfront => ?_
    exact List.mem_map.mpr ⟨a, hfront, if_neg hne⟩
  next =>
    split
    next => exact ha.imp_left (List.mem_append_left _)
    next =>
      refine ha.imp_right ?_
      rintro ⟨other, hother⟩
      refine ⟨other, ?_⟩
      have hapart : ¬ Key.cmp key other = .eq := fun heq =>
        hne (Key.beq_trans (hr.rest_key hother) (Key.beq_symm (Key.cmp_eq_iff.mp heq)))
      rw [Std.TreeMap.getElem?_insert, if_neg hapart]
      exact hother

theorem mem_toList_store_iff (hr : r.Coherent) :
    a ∈ (r.store key provision).toList ↔
      a = ⟨key, provision, r.nextSequence⟩ ∨ a ∈ r.toList ∧ ¬ (a.key == key) = true := by
  constructor
  · intro ha
    by_cases hkey : (a.key == key) = true
    · -- Only one registration under the key is left.
      have hself := (hr.store key provision).find?_self (r.mem_toList_store_self key provision)
      have hfound := (hr.store key provision).find?_self ha
      rw [find?_congr _ hkey, hself] at hfound
      exact Or.inl (Option.some.inj hfound).symm
    · refine (mem_toList_store ha).imp_right fun hold => ⟨hold, hkey⟩
  · rintro (rfl | ⟨ha, hne⟩)
    · exact r.mem_toList_store_self key provision
    · exact mem_toList_store_of_ne ha hne hr

theorem mem_bySequence {registrations : List (Registration H)} :
    a ∈ bySequence registrations ↔ a ∈ registrations :=
  (sorted_perm _ _).mem_iff

theorem mem_ofService : a ∈ r.ofService key ↔ a ∈ r.toList ∧ a.key.sameService key = true := by
  rw [ofService, mem_bySequence, List.mem_filter]

/-- Sequence numbers leave no choice how to order registrations. -/
theorem eq_of_sequence_pairwise {as bs : List (Registration H)}
    (has : as.Pairwise fun a b => a.sequence < b.sequence)
    (hbs : bs.Pairwise fun a b => a.sequence < b.sequence) (hmem : ∀ a, a ∈ as ↔ a ∈ bs) :
    as = bs := by
  have hnodup : ∀ {cs : List (Registration H)},
      cs.Pairwise (fun a b => a.sequence < b.sequence) → cs.Nodup := fun hcs =>
    hcs.imp fun hlt heq => Nat.ne_of_lt hlt (congrArg Registration.sequence heq)
  refine List.Perm.eq_of_pairwise ?_ has hbs
    ((List.perm_ext_iff_of_nodup (hnodup has) (hnodup hbs)).mpr hmem)
  intro a b _ _ hab hba
  exact absurd hab (Nat.lt_asymm hba)

theorem Coherent.bySequence_pairwise (hr : r.Coherent) {registrations : List (Registration H)}
    (hsublist : registrations.Sublist r.toList) :
    (bySequence registrations).Pairwise fun a b => a.sequence < b.sequence := by
  have hnodup : (bySequence registrations).Nodup :=
    (sorted_perm _ _).nodup_iff.mpr (hr.nodup_toList.sublist hsublist)
  have hle : (bySequence registrations).Pairwise fun a b => a.sequence ≤ b.sequence := by
    refine (sorted_pairwise ?_ ?_ registrations).imp fun h => of_decide_eq_true h
    · intro a b
      simpa using Nat.le_total a.sequence b.sequence
    · intro a b c hab hbc
      simp only [decide_eq_true_eq] at hab hbc ⊢
      omega
  have hmem : ∀ {a}, a ∈ bySequence registrations → a ∈ r.toList := fun ha =>
    hsublist.subset (mem_bySequence.mp ha)
  refine (hle.and hnodup).imp_of_mem ?_
  intro a b ha hb hab
  refine Nat.lt_of_le_of_ne hab.1 fun heq => hab.2 ?_
  exact hr.sequence_inj a (hmem ha) b (hmem hb) heq

/-- The registry holds what is listed, and numbers registrations alike. -/
structure Shows (r : Registry H) (c : Catalogue H) : Prop where
  assembled : r.Assembled
  ordered : r.ordered = c.entries
  nextSequence : r.nextSequence = c.accepted

namespace Shows

theorem withCapacity (capacity : Nat) : (Registry.withCapacity capacity).Shows (H := H) .empty where
  assembled := .withCapacity capacity
  ordered := by
    refine List.eq_nil_iff_forall_not_mem.mpr fun a ha => ?_
    rw [mem_ordered, mem_toList_iff] at ha
    simp [Registry.withCapacity] at ha
  nextSequence := rfl

theorem mem_entries (h : r.Shows c) : a ∈ c.entries ↔ a ∈ r.toList := by
  rw [← h.ordered, mem_ordered]

theorem pairwise_entries (h : r.Shows c) :
    c.entries.Pairwise fun a b => a.sequence < b.sequence :=
  h.ordered ▸ h.assembled.coherent.bySequence_pairwise (List.Sublist.refl _)

theorem store (h : r.Shows c) (key : Key) (provision : Provision H) :
    (r.store key provision).Shows (c.accept key provision) where
  assembled := .store key provision h.assembled
  ordered := by
    refine eq_of_sequence_pairwise
      ((h.assembled.coherent.store key provision).bySequence_pairwise (List.Sublist.refl _)) ?_ ?_
    · refine List.pairwise_append.mpr
        ⟨h.pairwise_entries.filter _, List.pairwise_singleton _ _, ?_⟩
      intro old hold fresh hfresh
      rw [List.mem_singleton.mp hfresh, ← h.nextSequence]
      exact h.assembled.coherent.sequence_lt old (h.mem_entries.mp (List.mem_of_mem_filter hold))
    · intro a
      rw [mem_ordered, mem_toList_store_iff h.assembled.coherent, ← h.mem_entries,
        h.nextSequence]
      simp [Catalogue.accept, or_comm]
  nextSequence := by
    rw [nextSequence_store, h.nextSequence]
    rfl

theorem freeze (h : r.Shows c) : r.freeze.Shows c where
  assembled := .freeze h.assembled
  ordered := by
    refine eq_of_sequence_pairwise
      (h.assembled.coherent.freeze.bySequence_pairwise (List.Sublist.refl _)) h.pairwise_entries ?_
    intro a
    rw [mem_ordered, mem_toList_freeze, h.mem_entries]
  nextSequence := h.nextSequence

theorem apart (h : r.Shows c) : KeysApart Registration.key c.entries := by
  refine h.pairwise_entries.imp_of_mem ?_
  intro a b ha hb hlt hkey
  have hfound := h.assembled.coherent.find?_self (h.mem_entries.mp ha)
  rw [find?_congr _ hkey, h.assembled.coherent.find?_self (h.mem_entries.mp hb),
    Option.some.injEq] at hfound
  exact Nat.ne_of_lt hlt (congrArg Registration.sequence hfound.symm)

theorem find?_eq (h : r.Shows c) (key : Key) : r.find? key = c.find? key := by
  ext a
  rw [h.assembled.find?_eq_some_iff, Catalogue.find?_eq_some_iff h.apart, h.mem_entries]

theorem size_eq (h : r.Shows c) : r.size = c.entries.length := by
  rw [← length_toList, ← length_ordered, h.ordered]

theorem ofService_eq (h : r.Shows c) (key : Key) :
    r.ofService key = c.entries.filter (·.key.sameService key) := by
  refine eq_of_sequence_pairwise
    (h.assembled.coherent.bySequence_pairwise List.filter_sublist) (h.pairwise_entries.filter _) ?_
  intro a
  rw [List.mem_filter, h.mem_entries]
  exact mem_ofService

theorem descriptors_eq (h : r.Shows c) :
    r.descriptors = c.entries.map Descriptor.ofRegistration :=
  congrArg (List.map Descriptor.ofRegistration) h.ordered

end Shows

/-- Nothing that can be asked of a registry tells it from the list. -/
structure Agrees (r : Registry H) (c : Catalogue H) : Prop where
  find? : ∀ key, r.find? key = c.find? key
  contains : ∀ key, r.contains key = c.entries.any (·.key == key)
  size : r.size = c.entries.length
  ordered : r.ordered = c.entries
  ofService : ∀ key, r.ofService key = c.entries.filter (·.key.sameService key)
  descriptors : r.descriptors = c.entries.map Descriptor.ofRegistration

theorem Shows.agrees (h : r.Shows c) : r.Agrees c where
  find? := h.find?_eq
  contains := by
    intro key
    rw [contains, h.find?_eq, Catalogue.find?, Bool.eq_iff_iff, List.find?_isSome, List.any_eq_true]
  size := h.size_eq
  ordered := h.ordered
  ofService := h.ofService_eq
  descriptors := h.descriptors_eq

end Registry

end Wiring
