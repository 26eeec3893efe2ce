import Wiring.Program

namespace Wiring

variable {H : Host}

namespace Listing

def wording : Interpretation H String where
  call callee args := "new " ++ callee.label ++ "(" ++ ", ".intercalate args ++ ")"
  load slot _ := "load " ++ slot.label
  fill slot _ value := slot.label ++ " := once " ++ value
  default parameter :=
    match parameter.kind with
    | .reference => "none " ++ parameter.key.label
    | .value => "default " ++ parameter.key.label
  adapt adapter value := "cast<" ++ adapter.target.name ++ ">(" ++ value ++ ")"

def block (heading : String) (lines : List String) : String :=
  if lines.isEmpty then ""
  else heading ++ ":\n" ++ String.join (lines.map fun line => "  " ++ line ++ "\n")

end Listing

def Program.listing (p : Program H) : String :=
  "factory " ++ p.root.label ++ " (" ++ p.lifetime.label ++ ")\n" ++
    Listing.block "slots"
      (p.slots.toList.mapIdx fun i binding =>
        (SlotId.ofIndex i).label ++ " " ++ binding.service.label) ++
    Listing.block "init" (p.initializer.map (Instruction.interpret Listing.wording)) ++
    Listing.block "entry" [p.entry.interpret Listing.wording]

end Wiring
