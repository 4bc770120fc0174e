import Arbiter.Decimal.Basic
import Arbiter.Toml.Text
import Arbiter.Toml.Value

/-! Numbers, dates and times of TOML. A whole number has 64 bits with a sign. Of fractions and of
points in time only the form is read. -/

namespace Arbiter.Toml

open Decimal (natOfDigits)

/-- The digits at the front, each after at most one underscore. -/
def moreDigits? (isDigit : Char → Bool) : List Char → Option (List Char × List Char)
  | '_' :: c :: r => do
    if isDigit c then
      let (ds, r) ← moreDigits? isDigit r
      return (c :: ds, r)
    else none
  | c :: r => do
    if isDigit c then
      let (ds, r) ← moreDigits? isDigit r
      return (c :: ds, r)
    else if c == '_' then none
    else return ([], c :: r)
  | [] => some ([], [])

/-- One digit or more, of which no underscore is the first. -/
def digits? (isDigit : Char → Bool) (cs : List Char) : Option (List Char × List Char) :=
  match cs with
  | c :: _ => if isDigit c then moreDigits? isDigit cs else none
  | [] => none

/-- The digits of a whole number in decimal, which starts with a zero only if it is zero. -/
def wholeDigits? (cs : List Char) : Option (List Char × List Char) :=
  match cs with
  | '0' :: r => some (['0'], r)
  | _ => digits? Char.isDigit cs

/-- The value of digits in a base of at most sixteen. -/
def valueIn (base : Nat) (ds : List Char) : Nat :=
  ds.foldl (fun n c => base * n + (hexValue? c).getD 0) 0

/-- A whole number, if it has a place in 64 bits. -/
def integer? (i : Int) : Option Toml :=
  if Int64.minValue.toInt ≤ i ∧ i ≤ Int64.maxValue.toInt then some (.integer i) else none

/-- A number in another base, after the letter that stands for the base. -/
def based? (base : Nat) (cs : List Char) : Option (Toml × List Char) := do
  let (ds, r) ← digits? (fun c => (hexValue? c).any (· < base)) cs
  return (← integer? (valueIn base ds), r)

/-- The exponent at the front, without its letter. -/
def exponent? (cs : List Char) : Option (Int × List Char) := do
  let (negative, r) := Decimal.signOf cs
  let (ds, r) ← digits? Char.isDigit r
  return (if negative then -natOfDigits ds else natOfDigits ds, r)

def isExponentLetter (c : Char) : Bool := c == 'e' || c == 'E'

/-- A fraction may not be too large, unless it is negative. -/
def float? (negative : Bool) (coefficient : Nat) (exponent : Int) : Option Toml :=
  if !negative && Decimal.sizeBits coefficient exponent = Decimal.infiniteBits then none
  else some .float

/-- The number at the front that starts with decimal digits. -/
def decimal? (cs : List Char) : Option (Toml × List Char) := do
  let (negative, r) := Decimal.signOf cs
  let (whole, r) ← wholeDigits? r
  match r with
  | '.' :: r =>
    let (fraction, r) ← digits? Char.isDigit r
    let digits := natOfDigits (whole ++ fraction)
    match r with
    | e :: s =>
      if isExponentLetter e then
        let (n, r) ← exponent? s
        return (← float? negative digits (n - fraction.length), r)
      else return (← float? negative digits (-fraction.length), r)
    | [] => return (← float? negative digits (-fraction.length), [])
  | c :: s =>
    if isExponentLetter c then
      let (n, r) ← exponent? s
      return (← float? negative (natOfDigits whole) n, r)
    else return (← integer? (if negative then -natOfDigits whole else natOfDigits whole), r)
  | [] => return (← integer? (if negative then -natOfDigits whole else natOfDigits whole), [])

/-- Exactly `count` digits at the front, as a number from `low` to `high`. -/
def field? (count low high : Nat) (cs : List Char) : Option (Nat × List Char) :=
  let ds := cs.take count
  let n := natOfDigits ds
  if ds.length = count ∧ ds.all Char.isDigit ∧ low ≤ n ∧ n ≤ high then some (n, cs.drop count)
  else none

/-- The rest after the given character. -/
def expect? (c : Char) : List Char → Option (List Char)
  | d :: r => if c == d then some r else none
  | [] => none

def daysIn (year month : Nat) : Nat :=
  let leap := year % 4 = 0 ∧ (year % 100 ≠ 0 ∨ year % 400 = 0)
  if month = 2 then if leap then 29 else 28
  else if [4, 6, 9, 11].contains month then 30
  else 31

/-- A day of the calendar. -/
def date? (cs : List Char) : Option (List Char) := do
  let (year, r) ← field? 4 0 9999 cs
  let (month, r) ← field? 2 1 12 (← expect? '-' r)
  let (_, r) ← field? 2 1 (daysIn year month) (← expect? '-' r)
  return r

/-- A time of day, in which a minute may have one second more. -/
def time? (cs : List Char) : Option (List Char) := do
  let (_, r) ← field? 2 0 23 cs
  let (_, r) ← field? 2 0 59 (← expect? ':' r)
  let (_, r) ← field? 2 0 60 (← expect? ':' r)
  match r with
  | '.' :: s =>
    let left := s.dropWhile Char.isDigit
    return if left.length < s.length then left else r
  | _ => return r

/-- The distance from universal time, if there is one. -/
def offset? (cs : List Char) : Option (List Char) :=
  match cs with
  | c :: r =>
    if c == 'Z' || c == 'z' then some r
    else if c == '+' || c == '-' then do
      let (_, r) ← field? 2 0 23 r
      let (_, r) ← field? 2 0 59 (← expect? ':' r)
      return r
    else some cs
  | [] => some []

/-- The two characters at the front are digits and a colon follows. -/
def startsTime (cs : List Char) : Bool :=
  match cs with
  | a :: b :: c :: _ => a.isDigit && b.isDigit && c == ':'
  | _ => false

/-- The four characters at the front are digits and a hyphen follows. -/
def startsDate (cs : List Char) : Bool :=
  (cs.take 4).length == 4 && (cs.take 4).all Char.isDigit && (cs.drop 4).head? == some '-'

/-- A day, a time of day, or both with an optional distance from universal time. -/
def dateTime? (cs : List Char) : Option (List Char) :=
  if startsDate cs then do
    let r ← date? cs
    match r with
    | c :: s =>
      if (c == 'T' || c == 't' || c == ' ') && startsTime s then offset? (← time? s) else return r
    | [] => return []
  else time? cs

/-- A number, date or time at the front. -/
def number? (cs : List Char) : Option (Toml × List Char) :=
  let afterSign := (Decimal.signOf cs).2
  if startsDate cs || startsTime cs then (dateTime? cs).map fun r => (.dateTime, r)
  else if ['i', 'n', 'f'].isPrefixOf afterSign || ['n', 'a', 'n'].isPrefixOf afterSign then
    some (.float, afterSign.drop 3)
  else
    match cs with
    | '0' :: 'x' :: r => based? 16 r
    | '0' :: 'o' :: r => based? 8 r
    | '0' :: 'b' :: r => based? 2 r
    | _ => decimal? cs

end Arbiter.Toml
