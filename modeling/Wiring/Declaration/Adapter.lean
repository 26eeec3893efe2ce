import Wiring.Client.Instance
import Wiring.Text.Inspect

namespace Wiring

/-- Client code that presents the contents of an implementation as an interface. -/
abbrev Conversion (H : Host) := H.Payload → Client H (Except Failure H.Payload)

structure Adapter (H : Host) where
  target : TypeTag
  source : TypeTag
  convert : Conversion H

def Adapter.inspect {H : Host} (a : Adapter H) : String :=
  Text.inspectTuple "Caster" [Text.quote a.target.name]

end Wiring
