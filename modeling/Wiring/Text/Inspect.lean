import Wiring.Text.Quoted

namespace Wiring.Text

/-- A record: `Point { x: 1, y: 2 }`. -/
def inspectRecord (name : String) (fields : List (String × String)) : String :=
  name ++ " \x7b " ++ ", ".intercalate (fields.map fun (field, value) => field ++ ": " ++ value) ++
    " \x7d"

def inspectTuple (name : String) (values : List String) : String :=
  name ++ "(" ++ ", ".intercalate values ++ ")"

def inspectList (values : List String) : String :=
  "[" ++ ", ".intercalate values ++ "]"

end Wiring.Text
