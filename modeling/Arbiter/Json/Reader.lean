import Arbiter.Json.Value

/-! Reading JSON text. Nesting is bounded by the length of the text alone, since every value takes
at least one character. -/

namespace Arbiter.Json

def isJsonBlank (c : Char) : Bool := c == ' ' || c == '\n' || c == '\t' || c == '\r'

def skipBlanks (cs : List Char) : List Char := cs.dropWhile isJsonBlank

def hexValue? (c : Char) : Option Nat :=
  if c.isDigit then some (c.toNat - '0'.toNat)
  else if 'a' ≤ c ∧ c ≤ 'f' then some (c.toNat - 'a'.toNat + 10)
  else if 'A' ≤ c ∧ c ≤ 'F' then some (c.toNat - 'A'.toNat + 10)
  else none

/-- The value of four hexadecimal digits at the front. -/
def hex4? : List Char → Option (Nat × List Char)
  | a :: b :: c :: d :: r => do
    let a ← hexValue? a
    let b ← hexValue? b
    let c ← hexValue? c
    let d ← hexValue? d
    return (4096 * a + 256 * b + 16 * c + d, r)
  | _ => none

def escaped? : Char → Option Char
  | '"' => some '"'
  | '\\' => some '\\'
  | '/' => some '/'
  | 'b' => some '\x08'
  | 'f' => some '\x0c'
  | 'n' => some '\n'
  | 'r' => some '\r'
  | 't' => some '\t'
  | _ => none

/-- The units of text in a string literal: characters, and code units given by number. -/
inductive Unit16
  | char (c : Char)
  | code (n : Nat)

def Unit16.isChar : Unit16 → Bool
  | char _ => true
  | code _ => false

/-- The units up to the closing quote. Control characters have to be escaped. -/
def stringUnits? : Nat → List Char → Option (List Unit16 × List Char)
  | 0, _ => none
  | fuel + 1, cs =>
    match cs with
    | '"' :: r => some ([], r)
    | '\\' :: 'u' :: r => do
      let (n, r) ← hex4? r
      let (us, r) ← stringUnits? fuel r
      return (.code n :: us, r)
    | '\\' :: c :: r => do
      let c ← escaped? c
      let (us, r) ← stringUnits? fuel r
      return (.char c :: us, r)
    | c :: r =>
      if c = '\\' ∨ c.toNat < 32 then none
      else do
        let (us, r) ← stringUnits? fuel r
        return (.char c :: us, r)
    | [] => none

/-- The text of the units: a high half and a low half next to each other are one character, and a
half alone is none. -/
def textOfUnits? : List Unit16 → Option (List Char)
  | [] => some []
  | .char c :: us => (textOfUnits? us).map (c :: ·)
  | .code n :: us =>
    if 0xD800 ≤ n ∧ n < 0xDC00 then
      match us with
      | .code m :: vs =>
        if 0xDC00 ≤ m ∧ m < 0xE000 then
          (textOfUnits? vs).map (Char.ofNat (0x10000 + (n - 0xD800) * 0x400 + (m - 0xDC00)) :: ·)
        else none
      | _ => none
    else if 0xDC00 ≤ n ∧ n < 0xE000 then none
    else (textOfUnits? us).map (Char.ofNat n :: ·)

/-- One or more digits at the front. -/
def digits1? (cs : List Char) : Option (List Char × List Char) :=
  let ds := cs.takeWhile Char.isDigit
  if ds.isEmpty then none else some (ds, cs.drop ds.length)

def wholePart? (cs : List Char) : Option (List Char × List Char) :=
  match cs with
  | '0' :: r => some (['0'], r)
  | _ => digits1? cs

def fractionPart? (cs : List Char) : Option (Option (List Char) × List Char) :=
  match cs with
  | '.' :: r => do
    let (ds, r) ← digits1? r
    return (some ds, r)
  | _ => some (none, cs)

def exponentPart? (cs : List Char) : Option (Option (Bool × List Char) × List Char) :=
  let afterSign (negative : Bool) (r : List Char) := do
    let (ds, r) ← digits1? r
    return (some (negative, ds), r)
  match cs with
  | e :: r =>
    if e = 'e' ∨ e = 'E' then
      match r with
      | '+' :: r => afterSign false r
      | '-' :: r => afterSign true r
      | _ => afterSign false r
    else some (none, cs)
  | [] => some (none, cs)

/-- The number at the front; its whole part has no leading zero. -/
def numeral? (cs : List Char) : Option (Numeral × List Char) := do
  let (negative, r) := match cs with
    | '-' :: r => (true, r)
    | _ => (false, cs)
  let (whole, r) ← wholePart? r
  let (fraction, r) ← fractionPart? r
  let (exponent, r) ← exponentPart? r
  return (⟨negative, whole, fraction, exponent⟩, r)

/-- The string literal after its opening quote, with its text if it has one. -/
def literal? (cs : List Char) : Option (Option String × List Char) := do
  let (us, r) ← stringUnits? cs.length cs
  return ((textOfUnits? us).map .ofList, r)

/-- The name of a field, if it has a text. -/
def fieldName? (cs : List Char) : Option (Option Name × List Char) :=
  match cs with
  | '"' :: r => do
    let (us, r) ← stringUnits? r.length r
    return ((textOfUnits? us).map fun text => ⟨.ofList text, us.all Unit16.isChar⟩, r)
  | _ => none

/-- The fields with one more before them, if all names have a text. -/
def consField (name : Option Name) (item : Json) (fields : Option (List (Name × Json))) :
    Option (List (Name × Json)) := do
  return (← name, item) :: (← fields)

mutual

/-- The value at the front, with blanks before it. -/
def value? : Nat → List Char → Option (Json × List Char)
  | 0, _ => none
  | fuel + 1, cs =>
    match skipBlanks cs with
    | 'n' :: 'u' :: 'l' :: 'l' :: r => some (.null, r)
    | 't' :: 'r' :: 'u' :: 'e' :: r => some (.bool true, r)
    | 'f' :: 'a' :: 'l' :: 's' :: 'e' :: r => some (.bool false, r)
    | '"' :: r => do
      let (text, r) ← literal? r
      return (text.elim .unreadable .string, r)
    | '[' :: r =>
      match skipBlanks r with
      | ']' :: r => some (.array [], r)
      | _ => do
        let (items, r) ← items? fuel r
        return (.array items, r)
    | '\x7b' :: r =>
      match skipBlanks r with
      | '\x7d' :: r => some (.object [], r)
      | _ => do
        let (fields, r) ← fields? fuel r
        return (fields.elim .unreadable .object, r)
    | r => do
      let (n, r) ← numeral? r
      return (.number n, r)

/-- The items of an array, of which there is at least one, and its closing bracket. -/
def items? : Nat → List Char → Option (List Json × List Char)
  | 0, _ => none
  | fuel + 1, cs => do
    let (item, r) ← value? fuel cs
    match skipBlanks r with
    | ',' :: r =>
      let (items, r) ← items? fuel r
      return (item :: items, r)
    | ']' :: r => return ([item], r)
    | _ => none

/-- The fields of an object, of which there is at least one, and its closing brace; the inner
`none` if a name has no text. -/
def fields? : Nat → List Char → Option (Option (List (Name × Json)) × List Char)
  | 0, _ => none
  | fuel + 1, cs => do
    let (name, r) ← fieldName? (skipBlanks cs)
    match skipBlanks r with
    | ':' :: r =>
      let (item, r) ← value? fuel r
      match skipBlanks r with
      | ',' :: r =>
        let (fields, r) ← fields? fuel r
        return (consField name item fields, r)
      | '\x7d' :: r => return (consField name item (some []), r)
      | _ => none
    | _ => none

end

/-- Reads a text that holds one value and blanks around it. -/
def parse? (text : String) : Option Json := do
  let cs := text.toList
  let (j, r) ← value? (cs.length + 1) cs
  if (skipBlanks r).isEmpty then return j else none

end Arbiter.Json
