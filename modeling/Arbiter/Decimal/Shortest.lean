import Arbiter.Decimal.Basic

/-! The shortest decimal text of a binary fraction: the fewest digits that read back as the same
fraction, and of several such numbers the nearest. It is written with a point and never with an
exponent. -/

namespace Arbiter.Decimal

/-- A positive fraction as `mantissa * 2 ^ exponent`, read off its bits. -/
def binaryParts (bits : Nat) : Nat × Int :=
  let e : Nat := bits / Nat.pow 2 52 % Nat.pow 2 11
  let m : Nat := bits % Nat.pow 2 52
  if e = 0 then (m, -1074) else (Nat.pow 2 52 + m, Int.ofNat e - 1075)

/-- `num / den` in units of `10 ^ k`, as a quotient again. -/
def inDecimalUnits (num den : Nat) (k : Int) : Nat × Nat :=
  if 0 ≤ k then (num, den * Nat.pow 10 k.toNat) else (num * Nat.pow 10 (-k).toNat, den)

/-- The bits of `n * 10 ^ k`. -/
def scaledBits (n : Nat) (k : Int) : Nat :=
  if 0 ≤ k then nearestBits (n * Nat.pow 10 k.toNat) 1
  else nearestBits n (Nat.pow 10 (-k).toNat)

/-- The multiple of `10 ^ k` nearest to `num / den` that reads back as `bits`, as a factor. -/
def onGrid? (bits num den : Nat) (k : Int) : Option Nat :=
  let (a, b) := inDecimalUnits num den k
  let low := a / b
  let near := if 2 * (a % b) < b then [low, low + 1] else [low + 1, low]
  near.find? fun n => scaledBits n k == bits

/-- The factor and the exponent of the shortest decimal, searched from `k` down. -/
def search (bits num den : Nat) : Nat → Int → Nat × Int
  | 0, k => (0, k)
  | steps + 1, k =>
    match onGrid? bits num den k with
    | some n => (n, k)
    | none => search bits num den steps (k - 1)

/-- The digits of the positive fraction with the given bits, as a factor of a power of ten. -/
def shortestParts (bits : Nat) : Nat × Int :=
  let (m, q) := binaryParts bits
  let (num, den) := if 0 ≤ q then (m * Nat.pow 2 q.toNat, 1) else (m, Nat.pow 2 (-q).toNat)
  let top : Int := ((num.log2 : Int) - den.log2) * 3 / 10 + 2
  search bits num den 40 top

/-- `n * 10 ^ k` with a point where the number is not whole. -/
def positional (n : Nat) (k : Int) : String :=
  let ds := Nat.toDigits 10 n
  if 0 ≤ k then .ofList (ds ++ List.replicate k.toNat '0')
  else
    let places := (-k).toNat
    let padded := List.replicate (places + 1 - ds.length) '0' ++ ds
    let whole := padded.length - places
    .ofList (padded.take whole ++ '.' :: padded.drop whole)

/-- The text of a number. -/
def shortest (x : Float) : String :=
  if x.isNaN then "NaN"
  else
    let bits := x.toBits.toNat
    let size := bits % Nat.pow 2 63
    let text :=
      if size = 0 then "0"
      else if size = infiniteBits then "inf"
      else
        let (n, k) := shortestParts size
        positional n k
    if bits < Nat.pow 2 63 then text else "-" ++ text

end Arbiter.Decimal
