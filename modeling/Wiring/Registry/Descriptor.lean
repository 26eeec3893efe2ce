import Wiring.Registry

namespace Wiring

structure Descriptor where
  key : Key
  lifetime : Lifetime
  implementation : TypeTag
  constructorCount : Nat
  isInstance : Bool

namespace Descriptor

def ofRegistration {H : Host} (r : Registration H) : Descriptor where
  key := r.key
  lifetime := r.lifetime
  implementation := r.implementation
  constructorCount := r.constructors.length
  isInstance := r.isInstance

def serviceName (d : Descriptor) : Option String :=
  d.key.name

def typeName (d : Descriptor) : String :=
  d.key.displayName

def isNamed (d : Descriptor) : Bool :=
  d.serviceName.isSome

def isInterface (d : Descriptor) : Bool :=
  d.key.isInterface

end Descriptor

def Registry.descriptors {H : Host} (r : Registry H) : List Descriptor :=
  r.ordered.map Descriptor.ofRegistration

end Wiring
