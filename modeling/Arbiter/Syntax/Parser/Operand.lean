import Arbiter.Syntax.Parser.Grammar
import Arbiter.Syntax.Parser.Strings

/-! Operands: names, literals, displays, comprehensions, and the calls, subscripts and attributes
behind them. -/

namespace Arbiter.Syntax

open Syntax.Parser

/-- A number is complex by its last letter, otherwise whole after a radix mark, otherwise fractional
if it has a point or an exponent. -/
def numberConstant (text : String) : Constant :=
  let cs := text.toList.map Char.toLower
  let radix := [['0', 'x'], ['0', 'o'], ['0', 'b']].any (·.isPrefixOf cs)
  if cs.getLast? = some 'j' then .complex text
  else if radix then .int text
  else if cs.contains '.' || cs.contains 'e' then .float text
  else .int text

def constantWord? : String → Option WordConstant
  | "True" => some (.bool true)
  | "False" => some (.bool false)
  | "None" => some .none
  | _ => none

namespace Grammar

/-- Items in which a star may stand, separated by commas. -/
def items (g : Grammar) : Parser Expr := itemOrTuple (starOr g.bitOr g.test)

def yieldExpr (g : Grammar) : Parser Expr := do
  expectWord "yield"
  if ← eatWord "from" then return .yieldFrom (← g.test)
  else return .yield (← optionally (← atExpr) g.items)

/-- One `for` clause of a comprehension. -/
def generator (g : Grammar) : Parser Generator := do
  let isAsync ← eatWord "async"
  expectWord "for"
  let head ← itemOrTuple (starOr g.bitOr g.bitOr)
  let head ← target .store head
  expectWord "in"
  let iter ← g.orTest
  let ifs ← many do optionally (← eatWord "if") g.orTest
  return ⟨head, iter, ifs, isAsync⟩

def generators (g : Grammar) : Parser (List Generator) :=
  many do optionally (← atGenerator) g.generator

/-- The items after the first of a display that ends with `closing`, which is taken. -/
def moreItems (g : Grammar) (closing : String) : Parser (List Expr) := do
  let rest ← afterCommas (atOp closing) (starOr g.bitOr g.test)
  expectOp closing
  return rest

def parenthesized (g : Grammar) : Parser Expr := do
  expectOp "("
  if ← eatOp ")" then return .tuple [] .load
  else if ← atWord "yield" then
    let e ← g.yieldExpr
    expectOp ")"
    return e
  else
    let first ← starOr g.bitOr g.test
    if ← atGenerator then
      let gens ← g.generators
      expectOp ")"
      return .generatorExp first gens
    else if ← atOp "," then return .tuple (first :: (← g.moreItems ")")) .load
    else
      expectOp ")"
      return first

def listDisplay (g : Grammar) : Parser Expr := do
  expectOp "["
  if ← eatOp "]" then return .list [] .load
  else
    let first ← starOr g.bitOr g.test
    if ← atGenerator then
      let gens ← g.generators
      expectOp "]"
      return .listComp first gens
    else return .list (first :: (← g.moreItems "]")) .load

def dictItem (g : Grammar) : Parser DictItem := do
  if ← eatOp "**" then return .spread (← g.bitOr)
  else
    let key ← g.test
    expectOp ":"
    return .entry key (← g.test)

/-- The rest of a dictionary after its first item, with the closing brace. -/
def moreDictItems (g : Grammar) (first : DictItem) : Parser Expr := do
  let rest ← afterCommas (atOp "\x7d") g.dictItem
  expectOp "\x7d"
  return .dict (first :: rest)

def braceDisplay (g : Grammar) : Parser Expr := do
  expectOp "\x7b"
  if ← eatOp "\x7d" then return .dict []
  else if ← eatOp "**" then g.moreDictItems (.spread (← g.bitOr))
  else
    let first ← starOr g.bitOr g.test
    if ← eatOp ":" then
      let value ← g.test
      if ← atGenerator then
        let gens ← g.generators
        expectOp "\x7d"
        return .dictComp first value gens
      else g.moreDictItems (.entry first value)
    else if ← atGenerator then
      let gens ← g.generators
      expectOp "\x7d"
      return .setComp first gens
    else return .set (first :: (← g.moreItems "\x7d"))

def atom (g : Grammar) : Parser Expr := do
  match ← peek with
  | .op "(" => g.parenthesized
  | .op "[" => g.listDisplay
  | .op "\x7b" => g.braceDisplay
  | .op "..." => do
    advance
    return .constant .ellipsis
  | .number text => do
    advance
    return .constant (numberConstant text)
  | .string _ => strings g.read
  | .name word =>
    match constantWord? word with
    | some c => do
      advance
      return .constant c
    | none =>
      if isKeyword word then fail (.invalidSyntaxNear word)
      else do
        advance
        return .name word .load
  | _ => fail .invalidSyntax

/-- An argument of a call. -/
inductive CallItem
  | positional (value : Expr)
  | keyword (k : Keyword)

def CallItem.positional? : CallItem → Option Expr
  | .positional e => some e
  | .keyword _ => none

def CallItem.keyword? : CallItem → Option Keyword
  | .positional _ => none
  | .keyword k => some k

def callItem (g : Grammar) : Parser CallItem := do
  if ← eatOp "*" then return .positional (.starred (← g.test) .load)
  else if ← eatOp "**" then return .keyword ⟨none, ← g.test⟩
  else
    match ← peek, ← peekSecond with
    | .name _, .op "=" => do
      let arg ← expectName
      advance
      return .keyword ⟨some arg, ← g.test⟩
    | _, _ => do
      let value ← g.test
      if ← atGenerator then return .positional (.generatorExp value (← g.generators))
      else return .positional value

/-- The arguments of a call, up to its closing bracket, which stays: the positional ones, then the
keywords. -/
def callArgs (g : Grammar) : Parser (List Expr × List Keyword) := do
  let found ← commaList ")" g.callItem
  return (found.filterMap CallItem.positional?, found.filterMap CallItem.keyword?)

/-- An index, or a slice where a colon follows. -/
def subscriptItem (g : Grammar) : Parser Expr := do
  let lower ← optionally (!(← atOp ":")) (starOr g.bitOr g.test)
  if ← eatOp ":" then
    let isOpen := (← atOp ":") || (← atOp "]") || (← atOp ",")
    let upper ← optionally (!isOpen) g.test
    let stepped ← eatOp ":"
    let step ← optionally (stepped && !((← atOp "]") || (← atOp ","))) g.test
    return .slice lower upper step
  else
    match lower with
    | some item => return item
    | none => fail (.expected ":")

def subscriptIndex (g : Grammar) : Parser Expr := do
  let first ← g.subscriptItem
  if ← atOp "," then return .tuple (first :: (← afterCommas (atOp "]") g.subscriptItem)) .load
  else return first

/-- What can follow an operand. -/
inductive Trailer
  | call (args : List Expr) (keywords : List Keyword)
  | subscript (index : Expr)
  | member (attr : String)

def Trailer.apply (e : Expr) : Trailer → Expr
  | call args keywords => .call e args keywords
  | subscript index => .subscript e index .load
  | member attr => .attribute e attr .load

def trailer? (g : Grammar) : Parser (Option Trailer) := do
  if ← eatOp "(" then
    let (args, keywords) ← g.callArgs
    expectOp ")"
    return some (.call args keywords)
  else if ← eatOp "[" then
    let index ← g.subscriptIndex
    expectOp "]"
    return some (.subscript index)
  else if ← eatOp "." then return some (.member (← expectName))
  else return none

def primary (g : Grammar) : Parser Expr := do
  let operand ← g.atom
  let trailers ← many g.trailer?
  return trailers.foldl Trailer.apply operand

end Grammar

end Arbiter.Syntax
