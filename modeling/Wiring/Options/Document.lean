import Wiring.Document
import Wiring.Options.Settings

namespace Wiring.Options

/-- An option with named choices: the name, or an object that maps the name to null. -/
def choice? {α : Type} (ofName? : String → Option α) : Document → Option α
  | .text (some name) => ofName? name
  | .object [(some name, .null)] => ofName? name
  | _ => none

/-- The depth limit: digits without sign, fraction or exponent, of an unsigned 64-bit value. -/
def depth? : Document → Option UInt64
  | .number literal => do
    let depth ← decimal? literal
    if depth < UInt64.size then some (UInt64.ofNat depth) else none
  | _ => none

def readOr {α : Type} (read? : Document → Option α) (fallback : α) : Option Document → Option α
  | some document => read? document
  | none => some fallback

def ofParts? (registrationMode missingDependency constructorPolicy maxDepth : Option Document) :
    Option Options := do
  let standard : Options := {}
  return {
    registrationMode :=
      ← readOr (choice? RegistrationMode.ofName?) standard.registrationMode registrationMode
    missingDependency :=
      ← readOr (choice? MissingDependencyPolicy.ofName?) standard.missingDependency
        missingDependency
    constructorPolicy :=
      ← readOr (choice? ConstructorPolicy.ofName?) standard.constructorPolicy constructorPolicy
    maxDepth := ← readOr depth? standard.maxDepth maxDepth }

/-- The field of that name: none when it is repeated, and an absent document when it is left out. -/
def field? (fields : List (Option String × Document)) (name : String) : Option (Option Document) :=
  match fields.filter (·.1 == some name) with
  | [] => some none
  | [(_, value)] => some (some value)
  | _ => none

def ofDocument? : Document → Option Options
  | .object fields => do
    if fields.any (·.1.isNone) then none
    ofParts? (← field? fields "registration_mode") (← field? fields "missing_dependency")
      (← field? fields "constructor_policy") (← field? fields "max_depth")
  | .array items =>
    if items.length ≤ 4 then ofParts? items[0]? items[1]? items[2]? items[3]? else none
  | _ => none

/-- The options that the text of a document describes. A depth limit of zero would plan nothing and
is refused. -/
def ofJson (text : String) : Except Failure Options :=
  match (Document.parse? text).bind ofDocument? with
  | none => .error (.config "invalid options document")
  | some options =>
    if options.maxDepth = 0 then .error (unsupported "max_depth" "0") else .ok options

end Wiring.Options
