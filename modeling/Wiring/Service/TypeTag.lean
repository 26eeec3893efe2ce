namespace Wiring

/-- Identity of a type: the number of a declared type, and how many shared handles are wrapped
around it. -/
structure TypeIdentity where
  declared : Nat
  handles : Nat
deriving DecidableEq, Inhabited

namespace TypeIdentity

def cmp : TypeIdentity → TypeIdentity → Ordering :=
  compareLex (compareOn TypeIdentity.declared) (compareOn TypeIdentity.handles)

instance : Std.TransCmp cmp := inferInstanceAs (Std.TransCmp (compareLex _ _))

theorem cmp_eq_iff {a b : TypeIdentity} : cmp a b = .eq ↔ a = b := by
  cases a
  cases b
  simp [cmp, compareLex_eq_eq, compareOn]

end TypeIdentity

structure TypeTag where
  id : TypeIdentity
  name : String
deriving DecidableEq, Inhabited

namespace TypeTag

def declared (number : Nat) (name : String) : TypeTag :=
  ⟨⟨number, 0⟩, name⟩

/-- The type of shared handles to `t`: the runtime type of an interface service. -/
def handle (t : TypeTag) : TypeTag :=
  ⟨⟨t.id.declared, t.id.handles + 1⟩, s!"alloc::sync::Arc<{t.name}>"⟩

theorem handle_id_inj {s t : TypeTag} : s.handle.id = t.handle.id ↔ s.id = t.id := by
  rcases s with ⟨⟨_, _⟩, _⟩
  rcases t with ⟨⟨_, _⟩, _⟩
  simp [handle]

end TypeTag

end Wiring
