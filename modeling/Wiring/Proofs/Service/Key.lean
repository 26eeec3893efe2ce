import Wiring.Service.Key

namespace Wiring

namespace Key

variable {a b : Key}

theorem beq_symm (hab : (a == b) = true) : (b == a) = true := by
  rw [← cmp_eq_iff] at hab ⊢
  exact Std.OrientedCmp.eq_symm hab

theorem beq_trans {a b c : Key} (hab : (a == b) = true) (hbc : (b == c) = true) :
    (a == c) = true := by
  rw [← cmp_eq_iff] at hab hbc ⊢
  exact Std.TransCmp.eq_trans hab hbc

instance : EquivBEq Key where
  rfl := cmp_eq_iff.mp Std.ReflCmp.compare_self
  symm := beq_symm
  trans := beq_trans

theorem beq_congr_right (hab : (a == b) = true) (c : Key) : (c == a) = (c == b) := by
  rw [Bool.eq_iff_iff]
  exact ⟨fun h => beq_trans h hab, fun h => beq_trans h (beq_symm hab)⟩

theorem beq_congr_left (hab : (a == b) = true) (c : Key) : (a == c) = (b == c) := by
  rw [BEq.comm, beq_congr_right hab, BEq.comm]

theorem digest_congr (hab : (a == b) = true) : a.digest = b.digest := by
  obtain ⟨hservice, hname⟩ := beq_iff.mp hab
  obtain ⟨service, name⟩ := a
  obtain ⟨other, otherName⟩ := b
  obtain rfl : name = otherName := hname
  cases service <;> cases other <;> simp only [BEq.beq, Service.beq] at hservice
  case concrete.concrete id display otherId otherDisplay =>
    obtain rfl : id = otherId := of_decide_eq_true hservice
    rfl
  case interface.interface interface otherInterface =>
    obtain rfl : interface = otherInterface := of_decide_eq_true hservice
    rfl
  all_goals cases hservice

theorem digest_eq_iff : a.digest = b.digest ↔ (a == b) = true := by
  refine ⟨fun h => ?_, digest_congr⟩
  rw [beq_iff]
  obtain ⟨service, name⟩ := a
  obtain ⟨other, otherName⟩ := b
  simp only [digest, List.cons.injEq] at h
  obtain ⟨-, hidentity, hnames⟩ := h
  constructor
  · cases service <;> cases other <;> simp_all [BEq.beq, Service.beq]
  · cases name <;> cases otherName <;> simp_all

theorem sameService_iff : a.sameService b = true ↔ (a.service == b.service) = true := by
  rw [sameService, beq_iff]
  exact and_iff_left rfl

theorem sameService_of_beq (hab : (a == b) = true) (c : Key) :
    a.sameService c = b.sameService c := by
  have hunnamed : (a.unnamed == b.unnamed) = true := beq_iff.mpr ⟨(beq_iff.mp hab).1, rfl⟩
  exact beq_congr_left hunnamed c.unnamed

theorem sameService_equivalence : Equivalence fun a b : Key => a.sameService b = true where
  refl _ := BEq.rfl
  symm := beq_symm
  trans := beq_trans

theorem beq_iff_sameService : (a == b) = true ↔ a.sameService b = true ∧ a.name = b.name := by
  rw [beq_iff, sameService_iff]

theorem named_beq_iff (name : String) :
    (a.named name == b.named name) = true ↔ a.sameService b = true := by
  rw [beq_iff, sameService_iff]
  exact and_iff_left rfl

/-- Equality is an equivalence, `cmp` a total order up to equality, and the digest and the service
asked for tell apart what equality tells apart. -/
structure Lawful (cmp : Key → Key → Ordering) : Prop where
  beq_equivalence : Equivalence fun a b : Key => (a == b) = true
  antisymm : ∀ a b, (cmp a b).isLE → (cmp b a).isLE → (a == b) = true
  trans : ∀ a b c, (cmp a b).isLE → (cmp b c).isLE → (cmp a c).isLE
  total : ∀ a b, (cmp a b).isLE ∨ (cmp b a).isLE
  swap : ∀ a b, cmp b a = (cmp a b).swap
  cmp_eq_iff : ∀ a b, cmp a b = .eq ↔ (a == b) = true
  digest_eq_iff : ∀ a b : Key, a.digest = b.digest ↔ (a == b) = true
  sameService_equivalence : Equivalence fun a b : Key => a.sameService b = true
  named_sameService : ∀ (a b : Key) name, (a.named name).sameService b = a.sameService b
  unnamed_sameService : ∀ a b : Key, a.unnamed.sameService b = a.sameService b
  beq_iff : ∀ a b : Key, (a == b) = true ↔ a.sameService b = true ∧ a.name = b.name
  named_beq_iff : ∀ (a b : Key) name,
    (a.named name == b.named name) = true ↔ a.sameService b = true

/-- Whatever total order the identities of types have, if it agrees with their equality, then the
order, the equality and the digest of keys and the services they ask for agree with each other. -/
theorem lawful_cmpBy (order : TypeIdentity → TypeIdentity → Ordering) [Std.TransCmp order]
    (hagree : ∀ s t, order s t = .eq ↔ s = t) : Lawful (cmpBy order) where
  beq_equivalence := ⟨fun _ => BEq.rfl, beq_symm, beq_trans⟩
  antisymm _ _ hab hba := (cmpBy_eq_iff hagree).mp (Std.OrientedCmp.isLE_antisymm hab hba)
  trans _ _ _ hab hbc := Std.TransCmp.isLE_trans hab hbc
  total a b := by
    have hswap : cmpBy order b a = (cmpBy order a b).swap := Std.OrientedCmp.eq_swap
    rw [hswap]
    cases cmpBy order a b <;> simp
  swap _ _ := Std.OrientedCmp.eq_swap
  cmp_eq_iff _ _ := cmpBy_eq_iff hagree
  digest_eq_iff _ _ := digest_eq_iff
  sameService_equivalence := sameService_equivalence
  named_sameService _ _ _ := rfl
  unnamed_sameService _ _ := rfl
  beq_iff _ _ := beq_iff_sameService
  named_beq_iff _ _ name := named_beq_iff name

end Key

namespace Sample

theorem lawful_key_order :
    Std.TransCmp TypeIdentity.cmp ∧ (∀ s t, TypeIdentity.cmp s t = .eq ↔ s = t) ∧
      Key.Lawful Key.cmp :=
  ⟨inferInstance, fun _ _ => TypeIdentity.cmp_eq_iff,
    Key.lawful_cmpBy TypeIdentity.cmp fun _ _ => TypeIdentity.cmp_eq_iff⟩

end Sample

end Wiring
