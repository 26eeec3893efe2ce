/-!
Documents in JSON. `Document.parse?` accepts exactly the texts of the grammar: no trailing commas, no
leading zeros, nothing after the document. Numbers keep their spelling, since whether one is an
integer is a question about its spelling; object fields keep their order and repetitions.
-/

namespace Wiring

inductive Document where
  | null
  | boolean (value : Bool)
  | number (literal : List Char)
  /-- A text; none when its escapes name half of a surrogate pair, which is no character. -/
  | text (value : Option String)
  | array (items : List Document)
  | object (fields : List (Option String × Document))
deriving Inhabited

namespace Document

def skipBlanks : List Char → List Char :=
  List.dropWhile fun c => c == ' ' || c == '\n' || c == '\t' || c == '\r'

/-- One element of a written text: a character, or a 16-bit unit spelled in hexadecimal. -/
inductive TextUnit where
  | char (c : Char)
  | code (unit : Nat)

def hexDigit? (c : Char) : Option Nat :=
  if c.isDigit then some (c.toNat - '0'.toNat)
  else if 'a' ≤ c ∧ c ≤ 'f' then some (c.toNat - 'a'.toNat + 10)
  else if 'A' ≤ c ∧ c ≤ 'F' then some (c.toNat - 'A'.toNat + 10)
  else none

def simpleEscape? (c : Char) : Option Char :=
  match c with
  | '"' => some '"'
  | '\\' => some '\\'
  | '/' => some '/'
  | 'b' => some '\x08'
  | 'f' => some '\x0c'
  | 'n' => some '\n'
  | 'r' => some '\r'
  | 't' => some '\t'
  | _ => none

/-- The elements of a text up to its closing quote, and what follows the quote. Control characters
have to be escaped. -/
def textUnits? : List Char → Option (List TextUnit × List Char)
  | [] => none
  | '"' :: rest => some ([], rest)
  | '\\' :: 'u' :: a :: b :: c :: d :: rest => do
    let unit ← [a, b, c, d].foldlM (fun value c => (hexDigit? c).map (16 * value + ·)) 0
    let (units, after) ← textUnits? rest
    return (.code unit :: units, after)
  | '\\' :: c :: rest => do
    let char ← simpleEscape? c
    let (units, after) ← textUnits? rest
    return (.char char :: units, after)
  | c :: rest => do
    if c.toNat < 0x20 then none
    let (units, after) ← textUnits? rest
    return (.char c :: units, after)

/-- The characters that the elements spell: units of the surrogate ranges only count in pairs. -/
def spell? : List TextUnit → Option (List Char)
  | [] => some []
  | .char c :: rest => (spell? rest).map (c :: ·)
  | .code high :: .code low :: rest =>
    if 0xd800 ≤ high ∧ high ≤ 0xdbff then
      if 0xdc00 ≤ low ∧ low ≤ 0xdfff then
        (spell? rest).map
          (Char.ofNat (0x10000 + (high - 0xd800) * 0x400 + (low - 0xdc00)) :: ·)
      else
        none
    else if 0xdc00 ≤ high ∧ high ≤ 0xdfff then none
    else (spell? (.code low :: rest)).map (Char.ofNat high :: ·)
  | .code unit :: rest =>
    if 0xd800 ≤ unit ∧ unit ≤ 0xdfff then none
    else (spell? rest).map (Char.ofNat unit :: ·)

def text? (cs : List Char) : Option (Option String × List Char) :=
  (textUnits? cs).map fun (units, rest) => ((spell? units).map String.ofList, rest)

def digits? (cs : List Char) : Option (List Char × List Char) :=
  match cs.span Char.isDigit with
  | ([], _) => none
  | (digits, rest) => some (digits, rest)

def fraction? : List Char → Option (List Char × List Char)
  | '.' :: rest => (digits? rest).map fun (digits, rest) => ('.' :: digits, rest)
  | cs => some ([], cs)

def exponent? : List Char → Option (List Char × List Char)
  | c :: rest =>
    if c == 'e' || c == 'E' then
      match rest with
      | s :: after =>
        if s == '+' || s == '-' then
          (digits? after).map fun (digits, rest) => (c :: s :: digits, rest)
        else
          (digits? rest).map fun (digits, rest) => (c :: digits, rest)
      | [] => none
    else
      some ([], c :: rest)
  | [] => some ([], [])

def whole? (cs : List Char) : Option (List Char × List Char) :=
  match digits? cs with
  | some ('0' :: _ :: _, _) => none
  | other => other

def number? (cs : List Char) : Option (List Char × List Char) := do
  let (sign, unsigned) :=
    match cs with
    | '-' :: rest => (['-'], rest)
    | _ => ([], cs)
  let (whole, rest) ← whole? unsigned
  let (fraction, rest) ← fraction? rest
  let (exponent, rest) ← exponent? rest
  return (sign ++ whole ++ fraction ++ exponent, rest)

mutual

/-- A value after blanks, and what follows it. Each nested value costs one unit of fuel; a value is
never nested deeper than its text is long. -/
def value? : Nat → List Char → Option (Document × List Char)
  | 0, _ => none
  | fuel + 1, cs =>
    match skipBlanks cs with
    | 'n' :: 'u' :: 'l' :: 'l' :: rest => some (.null, rest)
    | 't' :: 'r' :: 'u' :: 'e' :: rest => some (.boolean true, rest)
    | 'f' :: 'a' :: 'l' :: 's' :: 'e' :: rest => some (.boolean false, rest)
    | '"' :: rest => (text? rest).map fun (value, rest) => (.text value, rest)
    | '[' :: rest =>
      match skipBlanks rest with
      | ']' :: rest => some (.array [], rest)
      | rest => (items? fuel rest).map fun (items, rest) => (.array items, rest)
    | '{' :: rest =>
      match skipBlanks rest with
      | '}' :: rest => some (.object [], rest)
      | rest => (fields? fuel rest).map fun (fields, rest) => (.object fields, rest)
    | other => (number? other).map fun (literal, rest) => (.number literal, rest)

def items? : Nat → List Char → Option (List Document × List Char)
  | 0, _ => none
  | fuel + 1, cs => do
    let (item, rest) ← value? fuel cs
    match skipBlanks rest with
    | ',' :: rest =>
      let (items, rest) ← items? fuel rest
      return (item :: items, rest)
    | ']' :: rest => return ([item], rest)
    | _ => none

def fields? : Nat → List Char → Option (List (Option String × Document) × List Char)
  | 0, _ => none
  | fuel + 1, cs => do
    let '"' :: rest := skipBlanks cs | none
    let (name, rest) ← text? rest
    let ':' :: rest := skipBlanks rest | none
    let (value, rest) ← value? fuel rest
    match skipBlanks rest with
    | ',' :: rest =>
      let (fields, rest) ← fields? fuel rest
      return ((name, value) :: fields, rest)
    | '}' :: rest => return ([(name, value)], rest)
    | _ => none

end

def parse? (s : String) : Option Document := do
  let (document, rest) ← value? (s.length + 1) s.toList
  if (skipBlanks rest).isEmpty then some document else none

end Document

end Wiring
