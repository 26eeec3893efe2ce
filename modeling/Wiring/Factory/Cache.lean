import Wiring.Service.Key

/-!
The cache of compiled factories, at most one per key. Keys are spread over shards by a hash of their
digest; which hash is of no consequence for the contents.
-/

namespace Wiring

def mixByte (hash : UInt64) (byte : UInt8) : UInt64 :=
  (hash ^^^ byte.toUInt64) * 0x100000001b3

def Datum.mix (hash : UInt64) : Datum → UInt64
  | .tag number => mixByte hash number
  | .type id => mixByte (mixByte hash (UInt8.ofNat id.declared)) (UInt8.ofNat id.handles)
  | .text value => value.toUTF8.foldl mixByte hash

def hashDigest (digest : List Datum) : UInt64 :=
  digest.foldl Datum.mix 0xcbf29ce484222325

/-- Factories by key. What a factory is does not matter here. Every key that was asked for has a
cell, which is empty as long as no factory has been compiled for the key. -/
structure FactoryCache (φ : Type) where
  hash : List Datum → UInt64
  shards : Vector (List (Key × Option φ)) 16
  compilations : Nat

namespace FactoryCache

variable {φ : Type}

def empty (hash : List Datum → UInt64) : FactoryCache φ :=
  ⟨hash, Vector.replicate 16 [], 0⟩

def shardIndex (c : FactoryCache φ) (key : Key) : Fin 16 :=
  Fin.ofNat 16 (c.hash key.digest).toNat

def shard (c : FactoryCache φ) (key : Key) : List (Key × Option φ) :=
  c.shards[c.shardIndex key]

def cell? (c : FactoryCache φ) (key : Key) : Option (Option φ) :=
  ((c.shard key).find? (·.1 == key)).map (·.2)

def get? (c : FactoryCache φ) (key : Key) : Option φ :=
  (c.cell? key).join

/-- Gives a key a cell, empty for the time being, unless it has one. -/
def reserve (c : FactoryCache φ) (key : Key) : FactoryCache φ :=
  match c.cell? key with
  | some _ => c
  | none => { c with shards := c.shards.set (c.shardIndex key) (c.shard key ++ [(key, none)]) }

def fill (c : FactoryCache φ) (key : Key) (factory : φ) : FactoryCache φ :=
  { c with
    shards := c.shards.set (c.shardIndex key)
      ((c.shard key).map fun cell => if cell.1 == key then (cell.1, some factory) else cell)
    compilations := c.compilations + 1 }

/-- The factory stored for a key; if there is none, `compile` is run, and what it makes is stored. A
failure stores nothing. -/
def getOrAdd {m : Type → Type} [Monad m] (c : FactoryCache φ) (key : Key) (compile : m φ) :
    m (φ × FactoryCache φ) := do
  let c := c.reserve key
  match c.get? key with
  | some factory => return (factory, c)
  | none =>
    let factory ← compile
    return (factory, c.fill key factory)

/-- The factory of a key from the cache that is part of a state, compiled if need be. The key has a
cell from then on, also if `compile` fails. -/
def obtain {σ ε : Type} (cache : σ → FactoryCache φ) (withCache : σ → FactoryCache φ → σ)
    (key : Key) (compile : EStateM ε σ φ) : EStateM ε σ φ := do
  modify fun s => withCache s ((cache s).reserve key)
  let (factory, filled) ← (cache (← get)).getOrAdd key compile
  modify fun s => withCache s filled
  return factory

def size (c : FactoryCache φ) : Nat :=
  c.shards.toList.flatten.countP (·.2.isSome)

def isEmpty (c : FactoryCache φ) : Bool :=
  c.size == 0

def inspect (c : FactoryCache φ) : String :=
  Text.inspectRecord "CompiledFactoryCache"
    [("factories", toString c.size), ("compilations", toString c.compilations)]

end FactoryCache

end Wiring
