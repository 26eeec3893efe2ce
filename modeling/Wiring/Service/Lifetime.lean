namespace Wiring

/-- A singleton is built once and shared by everyone; a transient is built anew at every place it is
asked for. -/
inductive Lifetime where
  | singleton
  | transient
deriving DecidableEq, Inhabited

namespace Lifetime

def label : Lifetime → String
  | .singleton => "singleton"
  | .transient => "transient"

def inspect : Lifetime → String
  | .singleton => "Singleton"
  | .transient => "Transient"

end Lifetime

end Wiring
