/-!
# Reading JSON

Settings are loaded from JSON documents.  This reader keeps what the meaning of a
document depends on and the usual tree does not show: the order and repetition of
keys, and whether a number was written as a plain integer.
-/

namespace CardDuel

inductive Json
  | null
  | bool (value : Bool)
  /-- A number without fraction and exponent. -/
  | integer (value : Int)
  /-- Any other number; a negative zero is one too. -/
  | decimal
  /-- A text; `none` when an escape in it names half of a surrogate pair. -/
  | text (value : Option String)
  | list (items : List Json)
  | record (fields : List (Option String × Json))
deriving Inhabited

namespace Json

/-! ## Texts -/

/-- A piece of a text: a character or an escaped UTF-16 unit. -/
inductive Piece
  | plain (char : Char)
  | unit (code : Nat)

def hexDigit? (char : Char) : Option Nat :=
  if '0' ≤ char ∧ char ≤ '9' then some (char.toNat - '0'.toNat)
  else if 'a' ≤ char ∧ char ≤ 'f' then some (char.toNat - 'a'.toNat + 10)
  else if 'A' ≤ char ∧ char ≤ 'F' then some (char.toNat - 'A'.toNat + 10)
  else none

def hexUnit? (first second third fourth : Char) : Option Nat := do
  return (((← hexDigit? first) * 16 + (← hexDigit? second)) * 16 + (← hexDigit? third)) * 16 +
    (← hexDigit? fourth)

/-- The character that a one-letter escape stands for. -/
def shortEscape? : Char → Option Char
  | '"' => some '"'
  | '\\' => some '\\'
  | '/' => some '/'
  | 'b' => some '\x08'
  | 'f' => some '\x0c'
  | 'n' => some '\n'
  | 'r' => some '\r'
  | 't' => some '\t'
  | _ => none

def pieces? : List Char → Option (List Piece × List Char)
  | [] => none
  | '"' :: rest => some ([], rest)
  | '\\' :: 'u' :: first :: second :: third :: fourth :: rest => do
    let code ← hexUnit? first second third fourth
    let (pieces, rest) ← pieces? rest
    return (.unit code :: pieces, rest)
  | '\\' :: letter :: rest => do
    let char ← shortEscape? letter
    let (pieces, rest) ← pieces? rest
    return (.plain char :: pieces, rest)
  | char :: rest =>
    if char.toNat < 0x20 then none
    else do
      let (pieces, rest) ← pieces? rest
      return (.plain char :: pieces, rest)

def isHighHalf (code : Nat) : Bool := 0xD800 ≤ code && code < 0xDC00

def isLowHalf (code : Nat) : Bool := 0xDC00 ≤ code && code < 0xE000

/-- The characters of a text; a half of a surrogate pair needs the other half next to it. -/
def characters? : List Piece → Option (List Char)
  | [] => some []
  | .plain char :: rest => (char :: ·) <$> characters? rest
  | .unit code :: rest =>
    if isHighHalf code then
      match rest with
      | .unit low :: rest =>
        if isLowHalf low then
          (Char.ofNat (0x10000 + (code - 0xD800) * 0x400 + (low - 0xDC00)) :: ·) <$>
            characters? rest
        else none
      | _ => none
    else if isLowHalf code then none
    else (Char.ofNat code :: ·) <$> characters? rest

def text? (input : List Char) : Option (Option String × List Char) := do
  let (pieces, rest) ← pieces? input
  return ((characters? pieces).map String.ofList, rest)

/-! ## Numbers -/

def digits (input : List Char) : List Char × List Char :=
  input.span Char.isDigit

def ofDigits (digits : List Char) : Nat :=
  digits.foldl (fun number digit => 10 * number + (digit.toNat - '0'.toNat)) 0

/-- Read a fraction, if there is one; the answer tells whether there was. -/
def fraction? : List Char → Option (Bool × List Char)
  | '.' :: rest =>
    let (found, rest) := digits rest
    if found.isEmpty then none else some (true, rest)
  | rest => some (false, rest)

/-- Read the digits of an exponent behind its sign. -/
def exponentDigits? (input : List Char) : Option (Bool × List Char) :=
  let (found, rest) := digits input
  if found.isEmpty then none else some (true, rest)

/-- Read an exponent, if there is one; the answer tells whether there was. -/
def exponent? : List Char → Option (Bool × List Char)
  | mark :: rest =>
    if mark = 'e' ∨ mark = 'E' then
      match rest with
      | '+' :: rest => exponentDigits? rest
      | '-' :: rest => exponentDigits? rest
      | rest => exponentDigits? rest
    else some (false, mark :: rest)
  | [] => some (false, [])

def magnitude? (negative : Bool) (input : List Char) : Option (Json × List Char) := do
  let (whole, rest) := digits input
  if whole.isEmpty || (whole.head? = some '0' && 1 < whole.length) then none
  else do
    let (hasFraction, rest) ← fraction? rest
    let (hasExponent, rest) ← exponent? rest
    let value := ofDigits whole
    let number :=
      if hasFraction || hasExponent || (negative && value = 0) then decimal
      else integer (if negative then -value else value)
    return (number, rest)

def number? : List Char → Option (Json × List Char)
  | '-' :: rest => magnitude? true rest
  | input => magnitude? false input

/-! ## Documents -/

def skipBlank (input : List Char) : List Char :=
  input.dropWhile fun char => char = ' ' || char = '\n' || char = '\t' || char = '\r'

mutual

/-- Read a value.  Each call uses up one unit of a bound on the calls that are nested. -/
def value? : Nat → List Char → Option (Json × List Char)
  | 0, _ => none
  | bound + 1, input =>
    match skipBlank input with
    | 'n' :: 'u' :: 'l' :: 'l' :: rest => some (null, rest)
    | 't' :: 'r' :: 'u' :: 'e' :: rest => some (bool true, rest)
    | 'f' :: 'a' :: 'l' :: 's' :: 'e' :: rest => some (bool false, rest)
    | '"' :: rest => (text? rest).map fun read => (text read.1, read.2)
    | '[' :: rest =>
      match skipBlank rest with
      | ']' :: rest => some (list [], rest)
      | rest => (items? bound rest).map fun read => (list read.1, read.2)
    | '{' :: rest =>
      match skipBlank rest with
      | '}' :: rest => some (record [], rest)
      | rest => (fields? bound rest).map fun read => (record read.1, read.2)
    | rest => number? rest

def items? : Nat → List Char → Option (List Json × List Char)
  | 0, _ => none
  | bound + 1, input => do
    let (item, rest) ← value? bound input
    match skipBlank rest with
    | ']' :: rest => return ([item], rest)
    | ',' :: rest => do
      let (items, rest) ← items? bound rest
      return (item :: items, rest)
    | _ => none

def fields? : Nat → List Char → Option (List (Option String × Json) × List Char)
  | 0, _ => none
  | bound + 1, input =>
    match skipBlank input with
    | '"' :: rest => do
      let (key, rest) ← text? rest
      match skipBlank rest with
      | ':' :: rest => do
        let (value, rest) ← value? bound rest
        match skipBlank rest with
        | '}' :: rest => return ([(key, value)], rest)
        | ',' :: rest => do
          let (fields, rest) ← fields? bound rest
          return ((key, value) :: fields, rest)
        | _ => none
      | _ => none
    | _ => none

end

/-- Read a document.  Every two nested calls read at least one character. -/
def parse? (input : String) : Option Json := do
  let chars := input.toList
  let (value, rest) ← value? (2 * chars.length + 2) chars
  if (skipBlank rest).isEmpty then return value else none

/-! ## Typed reading -/

def asBool? : Json → Option Bool
  | bool value => some value
  | _ => none

def asInteger? (least greatest : Int) : Json → Option Int
  | integer value => if least ≤ value ∧ value ≤ greatest then some value else none
  | _ => none

def asNatural? (bound : Nat) (json : Json) : Option Nat :=
  (asInteger? 0 (bound - 1) json).map Int.toNat

def asText? : Json → Option String
  | text value => value
  | _ => none

def asOptionalText? : Json → Option (Option String)
  | null => some none
  | json => json.asText?.map some

def asList? {α : Type} (item? : Json → Option α) : Json → Option (List α)
  | list items => items.mapM item?
  | _ => none

/-- A variant: a text, or a record whose only key names it. -/
def asVariant? : Json → Option (String × Json)
  | text (some name) => some (name, null)
  | record [(some name, value)] => some (name, value)
  | _ => none

/-- The values of the named fields of a record, `none` for an absent one.  No name may appear
twice; other fields do not matter, but their keys have to be texts.  A list stands for a record
with all fields in order. -/
def asFields? (names : List String) : Json → Option (List (Option Json))
  | record fields =>
    if fields.any fun field => field.1.isNone then none
    else
      names.mapM fun name =>
        match fields.filter fun field => field.1 = some name with
        | [] => some none
        | [field] => some (some field.2)
        | _ => none
  | list items => if items.length = names.length then some (items.map some) else none
  | _ => none

end Json

end CardDuel
