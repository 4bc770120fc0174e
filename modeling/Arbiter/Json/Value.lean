/-! JSON values. A number keeps the digits it is written with, so that whole and fractional numbers
stay apart, and an object keeps its fields in order, repeated ones included. -/

namespace Arbiter

/-- A number as written: a sign, whole digits, and optionally a fraction and an exponent. -/
structure Json.Numeral where
  negative : Bool
  whole : List Char
  /-- The digits after the point. -/
  fraction : Option (List Char)
  /-- The sign and the digits of the exponent. -/
  exponent : Option (Bool × List Char)
deriving BEq, DecidableEq

/-- The name of a field, with its text. -/
structure Json.Name where
  text : String
  /-- No character of the text is given by its code. -/
  plain : Bool := true
deriving BEq, DecidableEq

inductive Json
  | null
  | bool (b : Bool)
  | number (n : Json.Numeral)
  | string (s : String)
  /-- A string literal that names half of a surrogate pair and therefore has no text, or an object
  with such a name of a field. It can be passed over but not read. -/
  | unreadable
  | array (items : List Json)
  | object (fields : List (Json.Name × Json))

namespace Json

instance : Inhabited Json := ⟨.null⟩

instance : Coe String Name where
  coe text := { text }

def Numeral.ofNat (n : Nat) : Numeral := ⟨false, Nat.toDigits 10 n, none, none⟩

def ofNat (n : Nat) : Json := .number (.ofNat n)

def ofInt (i : Int) : Json := .number { Numeral.ofNat i.natAbs with negative := i < 0 }

/-- The value under `name`, if the value is an object that has it; the last one wins. -/
def get? (j : Json) (name : String) : Option Json :=
  match j with
  | .object fields => (fields.reverse.find? (·.1.text == name)).map (·.2)
  | _ => none

def ofOption (encode : α → Json) : Option α → Json
  | none => .null
  | some a => encode a

def ofList (encode : α → Json) (xs : List α) : Json := .array (xs.map encode)

end Json

end Arbiter
