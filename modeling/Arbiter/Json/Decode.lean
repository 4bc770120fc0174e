import Arbiter.Json.Number

/-! Reading typed values out of JSON. Whole numbers have to be written as such and lie in the range
of their type; unknown fields of a record are passed over and repeated known ones refused. A record
may also be written as the array of its fields in order, and a plain word as the one field of an
object that holds null. -/

namespace Arbiter.Json

abbrev Decoder (α : Type) := Json → Option α

def toString? : Decoder String
  | .string s => some s
  | _ => none

def toBool? : Decoder Bool
  | .bool b => some b
  | _ => none

def toInt? : Decoder Int
  | .number n => n.toInt?
  | _ => none

/-- A whole number from `low` up to `high`. -/
def intWithin? (low high : Int) (j : Json) : Option Int :=
  j.toInt?.filter fun i => low ≤ i && i ≤ high

def toUInt32? (j : Json) : Option UInt32 :=
  (j.intWithin? 0 (UInt32.size - 1)).map fun i => .ofNat i.toNat

def toInt64? (j : Json) : Option Int64 :=
  (j.intWithin? Int64.minValue.toInt Int64.maxValue.toInt).map .ofInt

/-- A count of at most 64 bits. -/
def toNat64? (j : Json) : Option Nat :=
  (j.intWithin? 0 (UInt64.size - 1)).map (·.toNat)

/-- A number of any form. -/
def toFloat? : Decoder Float
  | .number n => n.toFloat?
  | _ => none

def toOption? (decode : Decoder α) : Decoder (Option α)
  | .null => some none
  | j => (decode j).map some

def toList? (decode : Decoder α) : Decoder (List α)
  | .array items => items.mapM decode
  | _ => none

/-- One of the given words. -/
def toWord? (words : List (String × α)) : Decoder α
  | .string s => words.lookup s
  | .object [(name, .null)] => words.lookup name.text
  | _ => none

/-- Whether a value can be kept for later reading: each string in it has a text, each number lies
in the range of binary fractions, and it nests to at most the given depth. -/
def isKept : Nat → Json → Bool
  | _, .unreadable => false
  | _, .number n => n.toFloat?.isSome
  | depth + 1, .array items => items.all (isKept depth)
  | depth + 1, .object fields => fields.all fun (_, j) => isKept depth j
  | 0, .array _ | 0, .object _ => false
  | _, .null | _, .bool _ | _, .string _ => true

/-- The fields of a record on the way to being read. -/
structure Fields where
  entries : List (String × Json)
  /-- The record is written as an array, which leaves no field out. -/
  positional : Bool

/-- The fields of a record that knows the given names. -/
def fieldsOf? (names : List String) : Decoder Fields
  | .object fields =>
    if names.all fun name => (fields.filter (·.1.text == name)).length ≤ 1 then
      some ⟨fields.map fun (name, j) => (name.text, j), false⟩
    else none
  | .array items =>
    if items.length ≤ names.length then some ⟨names.zip items, true⟩ else none
  | _ => none

namespace Fields

def find? (fs : Fields) (name : String) : Option Json := fs.entries.lookup name

/-- A field that has to be there. -/
def required (fs : Fields) (name : String) (decode : Decoder α) : Option α :=
  fs.find? name >>= decode

/-- A field that has the value `fallback` where it is left out. -/
def withDefault (fs : Fields) (name : String) (decode : Decoder α) (fallback : α) : Option α :=
  match fs.find? name with
  | some j => decode j
  | none => some fallback

/-- A field that may be left out or null, except that an array has to hold it. -/
def nullable (fs : Fields) (name : String) (decode : Decoder α) : Option (Option α) :=
  match fs.find? name with
  | some j => toOption? decode j
  | none => if fs.positional then none else some none

end Fields

end Arbiter.Json
