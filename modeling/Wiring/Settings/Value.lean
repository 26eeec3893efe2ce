import Wiring.Failure

namespace Wiring

/-- The value of a setting. Integers are signed 64-bit words. -/
inductive SettingValue where
  | text (value : String)
  | integer (value : Int64)
  | boolean (value : Bool)
deriving DecidableEq, Inhabited

/-- The number written by decimal digits, most significant first; none for anything else. -/
def decimal? (digits : List Char) : Option Nat :=
  if digits.isEmpty || !digits.all Char.isDigit then none
  else some (digits.foldl (fun value c => 10 * value + (c.toNat - '0'.toNat)) 0)

/-- The signed 64-bit integer written by a text: an optional sign, then digits, within range. -/
def int64? (s : String) : Option Int64 :=
  let bounded (value : Int) : Option Int64 :=
    if Int64.minValue.toInt ≤ value ∧ value ≤ Int64.maxValue.toInt then some (Int64.ofInt value)
    else none
  match s.toList with
  | '-' :: digits => (decimal? digits).bind fun magnitude => bounded (-magnitude)
  | '+' :: digits => (decimal? digits).bind fun magnitude => bounded magnitude
  | digits => (decimal? digits).bind fun magnitude => bounded magnitude

namespace SettingValue

/-- A text that reads as an integer is one, `true` and `false` are booleans, and any other text
stands for itself. -/
def parse (raw : String) : SettingValue :=
  match int64? raw with
  | some value => .integer value
  | none =>
    if raw = "true" then .boolean true
    else if raw = "false" then .boolean false
    else .text raw

def display : SettingValue → String
  | .text value => s!"'{value}'"
  | .integer value => toString value.toInt
  | .boolean value => if value then "true" else "false"

def asText : SettingValue → Except Failure String
  | .text value => .ok value
  | other => .error (.config s!"expected a string, found {other.display}")

def asInteger : SettingValue → Except Failure Int64
  | .integer value => .ok value
  | other => .error (.config s!"expected an integer, found {other.display}")

end SettingValue

end Wiring
