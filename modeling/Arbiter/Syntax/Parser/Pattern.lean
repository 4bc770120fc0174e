import Arbiter.Syntax.Parser.Operator

/-! Patterns of `case` clauses. -/

namespace Arbiter.Syntax

open Syntax.Parser

def Pattern.isStar : Pattern → Bool
  | .star _ => true
  | _ => false

namespace Grammar

/-- A pattern in a sequence, where a star may stand before a name. -/
def sequenceItem (item : Parser Pattern) : Parser Pattern := do
  if ← eatOp "*" then
    let name ← expectName
    return .star (if name = "_" then none else some name)
  else item

/-- The patterns in brackets that `closing` ends; it is taken. -/
def bracketed (g : Grammar) (closing : String) : Parser (List Pattern) := do
  let patterns ← commaList closing (sequenceItem g.pattern)
  expectOp closing
  return patterns

/-- Brackets around one pattern without a comma only group it, unless it is starred. -/
def groupPattern (g : Grammar) : Parser Pattern := do
  expectOp "("
  if ← eatOp ")" then return .sequence []
  else
    let first ← sequenceItem g.pattern
    if ← atOp "," then
      let rest ← afterCommas (atOp ")") (sequenceItem g.pattern)
      expectOp ")"
      return .sequence (first :: rest)
    else
      expectOp ")"
      return if first.isStar then .sequence [first] else first

/-- An argument of a class pattern. -/
inductive ClassItem
  | positional (pattern : Pattern)
  | keyword (k : KeywordPattern)

def ClassItem.positional? : ClassItem → Option Pattern
  | .positional p => some p
  | .keyword _ => none

def ClassItem.keyword? : ClassItem → Option KeywordPattern
  | .positional _ => none
  | .keyword k => some k

/-- An argument after `before`, last first; a positional one may not follow a keyword. -/
def classItem (g : Grammar) (before : List ClassItem) : Parser ClassItem := do
  match ← peek, ← peekSecond with
  | .name _, .op "=" => do
    let attr ← expectName
    advance
    return .keyword ⟨attr, ← g.pattern⟩
  | _, _ =>
    if before.any (·.keyword?.isSome) then fail .positionalAfterKeyword
    else return .positional (← g.pattern)

/-- The arguments of a class pattern, up to its closing bracket, which stays. -/
def classPattern (g : Grammar) (head : Expr) : Parser Pattern := do
  let found ← collect fun before => do
    if !(← separated before) then return none
    else if ← atOp ")" then return none
    else some <$> g.classItem before
  return .cls head (found.filterMap ClassItem.positional?) (found.filterMap ClassItem.keyword?)

/-- A capture, a dotted value or a class pattern. -/
def namePattern (g : Grammar) : Parser Pattern := do
  let name ← expectName
  let attrs ← many do optionally (← eatOp ".") expectName
  let head := attrs.foldl (fun e attr => .attribute e attr .load) (Expr.name name .load)
  if ← eatOp "(" then
    let p ← g.classPattern head
    expectOp ")"
    return p
  else if attrs.isEmpty then return .capture name
  else return .value head

def mappingKey (g : Grammar) : Parser Expr := do
  match ← g.closedPattern with
  | .value key => return key
  | .singleton c => return .constant c
  | _ => fail .badMappingKey

/-- An entry of a mapping pattern, or the name that takes the rest. -/
inductive MappingPart
  | item (i : MappingItem)
  | rest (name : String)

def MappingPart.item? : MappingPart → Option MappingItem
  | .item i => some i
  | .rest _ => none

def MappingPart.rest? : MappingPart → Option String
  | .item _ => none
  | .rest name => some name

def mappingPart (g : Grammar) : Parser MappingPart := do
  if ← eatOp "**" then return .rest (← expectName)
  else
    let key ← g.mappingKey
    expectOp ":"
    return .item ⟨key, ← g.pattern⟩

/-- A mapping pattern; nothing but a comma may follow the name that takes the rest. -/
def mappingPattern (g : Grammar) : Parser Pattern := do
  expectOp "\x7b"
  let parts ← collect fun before => do
    if !(← separated before) then return none
    else if before.any (·.rest?.isSome) then return none
    else if ← atOp "\x7d" then return none
    else some <$> g.mappingPart
  expectOp "\x7d"
  return .mapping (parts.filterMap MappingPart.item?) (parts.filterMap MappingPart.rest?).head?

def closedPatternRule (g : Grammar) : Parser Pattern := do
  match ← peek with
  | .number _ | .op "-" => Pattern.value <$> g.arithmetic
  | .string _ => Pattern.value <$> strings g.read
  | .op "(" => g.groupPattern
  | .op "[" => do
    advance
    return .sequence (← g.bracketed "]")
  | .op "\x7b" => g.mappingPattern
  | .name "_" => do
    advance
    return .wildcard
  | .name word =>
    match constantWord? word with
    | some c => do
      advance
      return .singleton c
    | none => g.namePattern
  | _ => fail .invalidPattern

/-- Alternatives, and a name for what they match. -/
def patternRule (g : Grammar) : Parser Pattern := do
  let first ← g.closedPatternRule
  let rest ← many do optionally (← eatOp "|") g.closedPatternRule
  let p := if rest.isEmpty then first else .or (first :: rest)
  if ← eatWord "as" then
    let name ← expectName
    if name = "_" then fail .underscoreTarget
    return .bind p name
  else return p

/-- The pattern of a `case`; commas without brackets make a sequence of it. -/
def casePattern (g : Grammar) : Parser Pattern := do
  let first ← sequenceItem g.patternRule
  if ← atOp "," then
    let stop := do return (← atOp ":") || (← atWord "if")
    let rest ← afterCommas stop (sequenceItem g.patternRule)
    return .sequence (first :: rest)
  else if first.isStar then fail .starOutsideSequence
  else return first

end Grammar

end Arbiter.Syntax
