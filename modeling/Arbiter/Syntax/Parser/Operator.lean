import Arbiter.Syntax.Parser.Operand

/-! Operators, from the tightest to the loosest, up to whole expressions. -/

namespace Arbiter.Syntax

open Syntax.Parser

/-- The binary operators that associate to the left, from loosest to tightest. -/
def binaryLevels : List (List BinaryOp) := [
  [.bitOr], [.bitXor], [.bitAnd], [.leftShift, .rightShift], [.add, .sub],
  [.mult, .div, .floorDiv, .mod, .matMult]]

namespace Parser

/-- Takes the next token if it is one of the operators. -/
def eatBinary? (ops : List BinaryOp) : Parser (Option BinaryOp) := do
  match ← peek with
  | .op symbol =>
    match ops.find? (·.symbol == symbol) with
    | some op => do
      advance
      return some op
    | none => return none
  | _ => return none

/-- Operands joined by the operators of the given levels, the first of which binds loosest. -/
def binaryChain (operand : Parser Expr) : List (List BinaryOp) → Parser Expr
  | [] => operand
  | ops :: tighter => do
    let first ← binaryChain operand tighter
    let rest ← many do
      match ← eatBinary? ops with
      | some op => return some (op, ← binaryChain operand tighter)
      | none => return none
    return rest.foldl (fun left (op, right) => .binary left op right) first

/-- Takes a comparison operator, which may be of two words. -/
def eatCompareOp? : Parser (Option CompareOp) := do
  match ← peek with
  | .op "<" => taken .lt
  | .op ">" => taken .gt
  | .op "==" => taken .eq
  | .op ">=" => taken .ge
  | .op "<=" => taken .le
  | .op "!=" => taken .notEq
  | .name "in" => taken .isIn
  | .name "not" => do
    if (← peekSecond) == .name "in" then
      advance
      taken .notIn
    else return none
  | .name "is" => do
    if (← peekSecond) == .name "not" then
      advance
      taken .isNot
    else taken .is
  | _ => return none
where
  taken (op : CompareOp) : Parser (Option CompareOp) := do
    advance
    return some op

/-- Operands joined by the word of a Boolean operator. -/
def boolChain (op : BoolOp) (word : String) (operand : Parser Expr) : Parser Expr := do
  let first ← operand
  match ← many do optionally (← eatWord word) operand with
  | [] => return first
  | rest => return .bool op (first :: rest)

end Parser

namespace Grammar

def power (g : Grammar) : Parser Expr := do
  let base ← if ← eatWord "await" then Expr.await <$> g.primary else g.primary
  if ← eatOp "**" then return .binary base .pow (← g.factor)
  else return base

def factorRule (g : Grammar) : Parser Expr := do
  match ← peek with
  | .op "+" => signed .plus
  | .op "-" => signed .minus
  | .op "~" => signed .invert
  | _ => g.power
where
  signed (op : UnaryOp) : Parser Expr := do
    advance
    return .unary op (← g.factor)

def bitOrRule (g : Grammar) : Parser Expr := binaryChain g.factorRule binaryLevels

/-- Sums and what binds tighter. -/
def arithmetic (g : Grammar) : Parser Expr := binaryChain g.factorRule (binaryLevels.drop 4)

def comparison (g : Grammar) : Parser Expr := do
  let left ← g.bitOrRule
  let rest ← many do
    match ← eatCompareOp? with
    | some op => return some ⟨op, ← g.bitOrRule⟩
    | none => return none
  match rest with
  | [] => return left
  | _ => return .compare left rest

def notTestRule (g : Grammar) : Parser Expr := do
  if ← eatWord "not" then return .unary .not (← g.notTest)
  else g.comparison

def orTestRule (g : Grammar) : Parser Expr :=
  boolChain .or "or" (boolChain .and "and" g.notTestRule)

def argument (g : Grammar) (annotations : Bool) : Parser Argument := do
  let name ← expectName
  if annotations then return ⟨name, ← optionally (← eatOp ":") g.test⟩
  else return ⟨name, none⟩

def param (g : Grammar) (closing : String) (annotations : Bool) : Parser Param := do
  if ← eatOp "/" then return .posOnlyMarker
  else if ← eatOp "**" then return .kwArgs (← g.argument annotations)
  else if ← eatOp "*" then
    let bare := (← atOp ",") || (← atOp closing)
    return .varArgs (← optionally (!bare) (g.argument annotations))
  else
    let arg ← g.argument annotations
    return .plain arg (← optionally (← eatOp "=") g.test)

def params (g : Grammar) (closing : String) (annotations : Bool) : Parser (List Param) :=
  commaList closing (g.param closing annotations)

def lambda (g : Grammar) : Parser Expr := do
  expectWord "lambda"
  let ps ← g.params ":" false
  expectOp ":"
  return .lambda ps (← g.test)

/-- A conditional expression, or the part before its `if`. -/
def conditional (g : Grammar) : Parser Expr := do
  let body ← g.orTestRule
  if ← eatWord "if" then
    let test ← g.orTestRule
    expectWord "else"
    return .ifElse test body (← g.test)
  else return body

def testRule (g : Grammar) : Parser Expr := do
  if ← atWord "lambda" then g.lambda
  else
    let e ← g.conditional
    if ← atOp ":=" then
      match e with
      | .name id _ => do
        advance
        return .named (.name id .store) (← g.test)
      | _ => fail .notNameable
    else return e

/-- Expressions in which a star may stand, separated by commas. -/
def itemsRule (g : Grammar) : Parser Expr := itemOrTuple (starOr g.bitOrRule g.testRule)

/-- Targets separated by commas, not yet taken as such. -/
def targetItems (g : Grammar) : Parser Expr := itemOrTuple (starOr g.bitOrRule g.bitOrRule)

def itemsOrYield (g : Grammar) : Parser Expr := do
  if ← atWord "yield" then g.yieldExpr else g.itemsRule

def standaloneRule (g : Grammar) : Parser Expr := do
  let e ← g.itemsRule
  expectNewline
  if !(← at? .endMarker) then fail .trailingTokens
  return e

end Grammar

end Arbiter.Syntax
