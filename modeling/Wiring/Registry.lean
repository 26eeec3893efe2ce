import Wiring.Options
import Wiring.Registration
import Wiring.Sorting
import Std.Data.TreeMap

/-!
The store of registrations. The first few registrations are kept in a list, which is quickest to
search while it is short; all further ones in a tree. Both halves together hold at most one
registration per key, and sequence numbers remember the order of registration.
-/

namespace Wiring

structure Registry (H : Host) where
  front : List (Registration H)
  rest : Std.TreeMap Key (Registration H) Key.cmp
  capacity : Nat
  nextSequence : Nat

namespace Registry

variable {H : Host}

def withCapacity (capacity : Nat) : Registry H :=
  { front := [], rest := ∅, capacity, nextSequence := 0 }

def empty : Registry H :=
  withCapacity 16

def find? (r : Registry H) (key : Key) : Option (Registration H) :=
  match r.front.find? (·.key == key) with
  | some registration => some registration
  | none => r.rest[key]?

def contains (r : Registry H) (key : Key) : Bool :=
  (r.find? key).isSome

/-- Every registration, in no particular order. -/
def toList (r : Registry H) : List (Registration H) :=
  r.front ++ r.rest.values

def size (r : Registry H) : Nat :=
  r.front.length + r.rest.size

def bySequence (registrations : List (Registration H)) : List (Registration H) :=
  sorted (fun a b => decide (a.sequence ≤ b.sequence)) registrations

def ordered (r : Registry H) : List (Registration H) :=
  bySequence r.toList

/-- Every registration of the key's service, named or not, in the order of registration. -/
def ofService (r : Registry H) (key : Key) : List (Registration H) :=
  bySequence (r.toList.filter fun registration => registration.key.sameService key)

/-- Stores a registration under its key and gives it the next sequence number. A key stays in the
half of the store where it is. -/
def store (r : Registry H) (key : Key) (provision : Provision H) : Registry H :=
  let registration : Registration H := ⟨key, provision, r.nextSequence⟩
  let next := { r with nextSequence := r.nextSequence + 1 }
  if r.front.any (·.key == key) then
    { next with front := r.front.map fun old => if old.key == key then registration else old }
  else if r.front.length < r.capacity then
    { next with front := r.front ++ [registration] }
  else
    { next with rest := r.rest.insert key registration }

/-- Stores a registration; a strict registry refuses a key that it has. -/
def insert (r : Registry H) (mode : RegistrationMode) (key : Key) (provision : Provision H) :
    Except Failure (Registry H) :=
  if mode = .strict ∧ r.contains key then .error (.alreadyRegistered key.displayName)
  else .ok (r.store key provision)

/-- The registry once registration is over: the list is sorted by key. -/
def freeze (r : Registry H) : Registry H :=
  { r with front := sorted (fun a b => (a.key.cmp b.key).isLE) r.front }

theorem mem_ordered {r : Registry H} {registration : Registration H} :
    registration ∈ r.ordered ↔ registration ∈ r.toList :=
  (sorted_perm _ _).mem_iff

theorem length_ordered (r : Registry H) : r.ordered.length = r.toList.length :=
  (sorted_perm _ _).length_eq

end Registry

end Wiring
