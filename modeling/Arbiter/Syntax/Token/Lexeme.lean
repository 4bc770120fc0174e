import Arbiter.Syntax.Token
import Arbiter.Text.Letter

/-! The lexeme at the front of a text: a blank, a comment, a line break or a token, found by looking
at characters alone. A lexeme is a first character and a number of further ones, so that reading
one always shortens the text. -/

namespace Arbiter.Syntax

def isNameStart (c : Char) : Bool := c == '_' || Text.isAlphabetic c

def isNameChar (c : Char) : Bool := isNameStart c || Text.isNumber c

/-- The letters that may stand before the quotes of a string, in either case. -/
def isStringMark (word : String) : Bool :=
  ["r", "u", "b", "f", "br", "rb", "fr", "rf"].contains word.toLower

/-- The characters through a closing `quote` on the same line. A backslash hides the character
after it, also a line break. -/
def lineStringLength? (quote : Char) : List Char → Option Nat
  | [] => none
  | c :: r =>
    if c = '\\' then
      match r with
      | [] => none
      | _ :: s => (lineStringLength? quote s).map (· + 2)
    else if c = quote then some 1
    else if c = '\n' then none
    else (lineStringLength? quote r).map (· + 1)

/-- The characters through three closing quotes in a row, on any line. -/
def blockStringLength? (quote : Char) : List Char → Option Nat
  | [] => none
  | c :: r =>
    if c = '\\' then
      match r with
      | [] => none
      | _ :: s => (blockStringLength? quote s).map (· + 2)
    else if c = quote ∧ [quote, quote].isPrefixOf r then some 3
    else (blockStringLength? quote r).map (· + 1)

/-- The characters of a string after its opening `quote`; two further quotes open a block. -/
def stringLength? (quote : Char) (r : List Char) : Option Nat :=
  if [quote, quote].isPrefixOf r then (blockStringLength? quote (r.drop 2)).map (· + 2)
  else lineStringLength? quote r

def isDigitOrUnderscore (c : Char) : Bool := c.isDigit || c == '_'

def isHexDigit (c : Char) : Bool := c.isDigit || ('a' ≤ c && c ≤ 'f') || ('A' ≤ c && c ≤ 'F')

/-- A point and the digits after it; of two points in a row neither belongs to a number. -/
def fractionPart : List Char → List Char
  | '.' :: r => if r.head? = some '.' then [] else '.' :: r.takeWhile isDigitOrUnderscore
  | _ => []

/-- An exponent, which needs a digit after its letter and sign. -/
def exponentPart : List Char → List Char
  | e :: d :: r =>
    if e = 'e' ∨ e = 'E' then
      if d.isDigit then e :: d :: r.takeWhile isDigitOrUnderscore
      else if (d = '+' ∨ d = '-') ∧ r.head?.any Char.isDigit then
        e :: d :: r.takeWhile isDigitOrUnderscore
      else []
    else []
  | _ => []

def imaginaryPart : List Char → List Char
  | c :: _ => if c = 'j' ∨ c = 'J' then [c] else []
  | [] => []

def decimalNumeral (cs : List Char) : List Char :=
  let whole := cs.takeWhile isDigitOrUnderscore
  let afterWhole := cs.drop whole.length
  let fraction := fractionPart afterWhole
  let afterFraction := afterWhole.drop fraction.length
  let exponent := exponentPart afterFraction
  let imaginary := imaginaryPart (afterFraction.drop exponent.length)
  whole ++ fraction ++ exponent ++ imaginary

/-- The number at the front of a text: one after a radix mark takes hexadecimal digits whatever the
radix. -/
def numeral (cs : List Char) : List Char :=
  match cs with
  | '0' :: x :: r =>
    if x ∈ ['x', 'X', 'o', 'O', 'b', 'B'] then
      '0' :: x :: r.takeWhile fun c => isHexDigit c || c == '_'
    else decimalNumeral cs
  | _ => decimalNumeral cs

/-- The longest operator at the front of a text. -/
def operatorAt? (cs : List Char) : Option String :=
  operators.find? fun s => s.toList.isPrefixOf cs

inductive Lexeme
  /-- A blank, a comment or a hidden line break. -/
  | space
  | lineBreak
  | token (kind : TokenKind)

/-- The first character of a text, which `c :: r` is, and `further` ones after it. -/
def spelling (c : Char) (r : List Char) (further : Nat) : String := .ofList (c :: r.take further)

/-- The lexeme at the front of `c :: r` and the number of its characters in `r`, or what is wrong and
the number of characters before the place where it is. -/
def lexeme (c : Char) (r : List Char) : Except (Cause × Nat) (Lexeme × Nat) :=
  if c = ' ' ∨ c = '\t' ∨ c = '\x0c' ∨ c = '\r' then .ok (.space, 0)
  else if c = '#' then .ok (.space, (r.takeWhile (· != '\n')).length)
  else if c = '\\' then
    match r with
    | '\n' :: _ => .ok (.space, 1)
    | '\r' :: '\n' :: _ => .ok (.space, 2)
    | _ => .error (.strayAfterBackslash, 0)
  else if c = '\n' then .ok (.lineBreak, 0)
  else if c = '"' ∨ c = '\'' then
    match stringLength? c r with
    | some n => .ok (.token (.string (spelling c r n)), n)
    | none => .error (.unterminatedString, 0)
  else if c.isDigit ∨ c = '.' ∧ r.head?.any Char.isDigit then
    let n := (numeral (c :: r)).length - 1
    .ok (.token (.number (spelling c r n)), n)
  else if isNameStart c then
    let n := (r.takeWhile isNameChar).length
    let word := spelling c r n
    match isStringMark word, r.drop n with
    | true, q :: s =>
      if q = '"' ∨ q = '\'' then
        match stringLength? q s with
        | some m => .ok (.token (.string (spelling c r (n + 1 + m))), n + 1 + m)
        | none => .error (.unterminatedString, n + 1)
      else .ok (.token (.name word), n)
    | _, _ => .ok (.token (.name word), n)
  else
    match operatorAt? (c :: r) with
    | some s => .ok (.token (.op s), s.length - 1)
    | none => .error (.invalidCharacter c, 0)

end Arbiter.Syntax
