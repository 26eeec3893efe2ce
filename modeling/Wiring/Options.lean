import Wiring.Text.Inspect

namespace Wiring

/-- What happens when a key is registered a second time. -/
inductive RegistrationMode where
  /-- The later registration takes the place of the earlier one. -/
  | replace
  /-- The later registration is refused. -/
  | strict
deriving DecidableEq, Inhabited

/-- What a plan does about a dependency that is not registered. -/
inductive MissingDependencyPolicy where
  | substitute
  | refuse
deriving DecidableEq, Inhabited

inductive ConstructorPolicy where
  /-- The one with the most parameters; of several such, the one declared first. -/
  | mostParameters
  | firstDeclared
deriving DecidableEq, Inhabited

namespace RegistrationMode

def name : RegistrationMode → String
  | .replace => "replace"
  | .strict => "strict"

def ofName? (name : String) : Option RegistrationMode :=
  if name = "replace" then some .replace
  else if name = "strict" then some .strict
  else none

def inspect : RegistrationMode → String
  | .replace => "Replace"
  | .strict => "Strict"

end RegistrationMode

namespace MissingDependencyPolicy

def name : MissingDependencyPolicy → String
  | .substitute => "default"
  | .refuse => "error"

def ofName? (name : String) : Option MissingDependencyPolicy :=
  if name = "default" then some .substitute
  else if name = "error" then some .refuse
  else none

def inspect : MissingDependencyPolicy → String
  | .substitute => "Default"
  | .refuse => "Error"

end MissingDependencyPolicy

namespace ConstructorPolicy

def name : ConstructorPolicy → String
  | .mostParameters => "most_parameters"
  | .firstDeclared => "first_declared"

def ofName? (name : String) : Option ConstructorPolicy :=
  if name = "most_parameters" then some .mostParameters
  else if name = "first_declared" then some .firstDeclared
  else none

def inspect : ConstructorPolicy → String
  | .mostParameters => "MostParameters"
  | .firstDeclared => "FirstDeclared"

end ConstructorPolicy

structure Options where
  registrationMode : RegistrationMode := .replace
  missingDependency : MissingDependencyPolicy := .substitute
  constructorPolicy : ConstructorPolicy := .mostParameters
  /-- The longest chain of services a plan may walk down. -/
  maxDepth : UInt64 := 256
deriving DecidableEq, Inhabited

namespace Options

def inspect (o : Options) : String :=
  Text.inspectRecord "ContainerOptions"
    [("registration_mode", o.registrationMode.inspect),
     ("missing_dependency", o.missingDependency.inspect),
     ("constructor_policy", o.constructorPolicy.inspect),
     ("max_depth", toString o.maxDepth.toNat)]

end Options

end Wiring
