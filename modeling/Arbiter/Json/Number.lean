import Arbiter.Decimal.Basic
import Arbiter.Json.Value

/-! The values of written numbers. A number without fraction and exponent is whole if it fits 64
bits. Every other one is a binary fraction, found from the first digits that fit 64 bits and one
scaling by a power of ten, which may be off the nearest one by a unit in the last place. -/

namespace Arbiter.Json

open Decimal (digitValue natOfDigits)

/-- Appends digits to `n` while the number stays below 2^64; also gives the digits left over. -/
def fitDigits (n : Nat) : List Char → Nat × List Char
  | [] => (n, [])
  | c :: r =>
    if 10 * n + digitValue c < UInt64.size then fitDigits (10 * n + digitValue c) r else (n, c :: r)

/-- `x` times ten to the `e`, in steps that stay within the range of powers; `none` past the largest
number. -/
def scale? (x : Float) (e : Int) : Option Float :=
  if 0 ≤ e then
    if e ≤ 308 then
      let y := x * Float.ofScientific 1 false e.toNat
      if y.isInf then none else some y
    else if x == 0.0 then some x else none
  else down (-e).toNat x ((-e).toNat / 308 + 1)
where
  down (n : Nat) (x : Float) : Nat → Option Float
    | 0 => some x
    | steps + 1 =>
      if n ≤ 308 then some (x / Float.ofScientific 1 false n)
      else if x == 0.0 then some x
      else down (n - 308) (x / Float.ofScientific 1 false 308) steps

namespace Numeral

/-- The whole number written, if it is written as one and lies between -2^63 and 2^64. A zero with a
sign is not whole. -/
def toInt? (n : Numeral) : Option Int :=
  match n.fraction, n.exponent with
  | none, none =>
    let m := natOfDigits n.whole
    if n.negative then
      if 0 < m ∧ Int64.minValue.toInt ≤ -(m : Int) then some (-(m : Int)) else none
    else if m < UInt64.size then some m else none
  | _, _ => none

/-- The number as a binary fraction; `none` if it is past the largest one. -/
def toFloat? (n : Numeral) : Option Float :=
  let (m, left) := fitDigits 0 n.whole
  let fraction := n.fraction.getD []
  let (m, unread) := fitDigits m fraction
  let places : Int := left.length - (fraction.length - unread.length : Nat)
  let size :=
    match n.exponent with
    | none => scale? (Float.ofNat m) places
    | some (down, ds) =>
      let e := natOfDigits ds
      if (e : Int) ≤ Int32.maxValue.toInt then
        let sum :=
          if down then max (places - e) Int32.minValue.toInt
          else min (places + e) Int32.maxValue.toInt
        scale? (Float.ofNat m) sum
      else if m = 0 ∨ down then some 0.0
      else none
  size.map fun x => if n.negative then -x else x

end Numeral

end Arbiter.Json
