/-! Decimal numbers as written in text, and the binary fractions and whole numbers they stand for. The
fraction is the one of 64 bits nearest to a quotient: a number that lies half way between two neighbours goes
to the one with an even last bit, and one past the largest goes to infinity. -/

namespace Arbiter.Decimal

def digitValue (c : Char) : Nat := c.toNat - '0'.toNat

def natOfDigits (ds : List Char) : Nat := ds.foldl (fun n c => 10 * n + digitValue c) 0

/-- `a / b` rounded to the nearest whole number, to the even one of two. -/
def divEven (a b : Nat) : Nat :=
  let q := a / b
  let r := a % b
  if b < 2 * r ∨ 2 * r = b ∧ q % 2 = 1 then q + 1 else q

/-- `num / den` in units of `2 ^ k`, as a quotient again. -/
def inUnits (num den : Nat) (k : Int) : Nat × Nat :=
  if 0 ≤ k then (num, den * Nat.pow 2 k.toNat) else (num * Nat.pow 2 (-k).toNat, den)

/-- The bits of infinity, above those of all numbers. -/
def infiniteBits : Nat := 0x7FF * Nat.pow 2 52

/-- The bits of the fraction nearest to `num / den`. The unit of its last place is `2 ^ k`, with `k`
such that 53 bits are left, but never below the smallest unit; a carry out of the 53 bits moves on
to the next exponent by itself. -/
def nearestBits (num den : Nat) : Nat :=
  if num = 0 then 0
  else
    let rough : Int := (num.log2 : Int) - den.log2 - 53
    let (a, b) := inUnits num den rough
    let fine := if a / b < Nat.pow 2 53 then rough else rough + 1
    let k := max fine (-1074)
    let (a, b) := inUnits num den k
    min ((k + 1074).toNat * Nat.pow 2 52 + divEven a b) infiniteBits

end Arbiter.Decimal

namespace Arbiter

/-- A number as written: plus or minus `coefficient * 10 ^ exponent`, or one of the two words for
what is no finite number. -/
inductive Decimal
  | finite (negative : Bool) (coefficient : Nat) (exponent : Int)
  | infinite (negative : Bool)
  | nan (negative : Bool)
deriving DecidableEq

namespace Decimal

/-- The sign at the front, and the rest. -/
def signOf : List Char → Bool × List Char
  | '-' :: r => (true, r)
  | '+' :: r => (false, r)
  | cs => (false, cs)

/-- The exponent that makes up the whole of the text, which starts with the letter e. -/
def exponentOf? : List Char → Option Int
  | [] => some 0
  | e :: r =>
    let (negative, ds) := signOf r
    if (e == 'e' || e == 'E') && !ds.isEmpty && ds.all Char.isDigit then
      let n : Int := natOfDigits ds
      some (if negative then -n else n)
    else none

/-- Digits with a point before, between or after them, and an exponent. -/
def ofDigits? (negative : Bool) (cs : List Char) : Option Decimal := do
  let whole := cs.takeWhile Char.isDigit
  let (fraction, r) := match cs.drop whole.length with
    | '.' :: r => (r.takeWhile Char.isDigit, r.dropWhile Char.isDigit)
    | r => ([], r)
  if whole.isEmpty && fraction.isEmpty then none
  else
    let e ← exponentOf? r
    return .finite negative (natOfDigits (whole ++ fraction)) (e - fraction.length)

/-- The number that a text spells, which has no blanks. -/
def ofString? (s : String) : Option Decimal :=
  let (negative, cs) := signOf s.toList
  match String.ofList (cs.map Char.toLower) with
  | "inf" | "infinity" => some (.infinite negative)
  | "nan" => some (.nan negative)
  | _ => ofDigits? negative cs

/-- The bits of `coefficient * 10 ^ exponent`. No number of 400 digits before the point is finite,
and none that starts 400 digits after it differs from zero. -/
def sizeBits (coefficient : Nat) (exponent : Int) : Nat :=
  let lead := exponent + (Nat.toDigits 10 coefficient).length
  if coefficient = 0 ∨ lead < -400 then 0
  else if 400 < lead then infiniteBits
  else if 0 ≤ exponent then nearestBits (coefficient * Nat.pow 10 exponent.toNat) 1
  else nearestBits coefficient (Nat.pow 10 (-exponent).toNat)

/-- The bits of the nearest binary fraction. -/
def bits (d : Decimal) : UInt64 :=
  let (negative, size) := match d with
    | finite negative c e => (negative, sizeBits c e)
    | infinite negative => (negative, infiniteBits)
    | nan negative => (negative, infiniteBits + Nat.pow 2 51)
  .ofNat (if negative then Nat.pow 2 63 + size else size)

def toFloat (d : Decimal) : Float := .ofBits d.bits

/-- Why a text is no whole number. -/
inductive WholeFault
  | empty
  | badDigit
  | tooLarge
deriving DecidableEq

def WholeFault.message : WholeFault → String
  | empty => "cannot parse integer from empty string"
  | badDigit => "invalid digit found in string"
  | tooLarge => "number too large to fit in target type"

/-- Appends digits to `n` as long as it stays below `bound`. -/
def appendDigits (bound n : Nat) : List Char → Except WholeFault Nat
  | [] => .ok n
  | c :: r =>
    if !c.isDigit then .error .badDigit
    else if 10 * n + digitValue c < bound then appendDigits bound (10 * n + digitValue c) r
    else .error .tooLarge

/-- The number below `bound` that digits after an optional plus sign spell. -/
def whole? (bound : Nat) (s : String) : Except WholeFault Nat :=
  match s.toList with
  | [] => .error .empty
  | ['+'] => .error .badDigit
  | '+' :: ds | ds => appendDigits bound 0 ds

end Decimal

end Arbiter
