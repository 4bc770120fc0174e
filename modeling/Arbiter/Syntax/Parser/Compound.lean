import Arbiter.Syntax.Parser.Pattern
import Arbiter.Syntax.Parser.Simple

/-! Statements that hold blocks of others. -/

namespace Arbiter.Syntax

open Syntax.Parser

namespace Grammar

/-- The parts of an indented block, up to and with its end. Empty lines are passed over. -/
def indented (part : Parser (List α)) : Parser (List α) := do
  let parts ← many do
    match ← peek with
    | .dedent => do
      advance
      return none
    | .endMarker => return none
    | .newline => do
      advance
      return some []
    | _ => some <$> part
  return parts.flatten

def expectIndent : Parser Unit := do
  if !(← eat? .indent) then fail .expectedIndentedBlock

/-- The block after a colon: the rest of the line, or the indented lines after it. -/
def block (g : Grammar) : Parser (List Stmt) := do
  expectOp ":"
  if ← eat? .newline then
    expectIndent
    indented g.statement
  else g.line

def elseBlock (g : Grammar) : Parser (List Stmt) := do
  if ← eatWord "else" then g.block else return []

/-- An `if` or `elif`, which starts at that word. -/
def branchRule (g : Grammar) : Parser Stmt := do
  advance
  let test ← g.testRule
  let body ← g.block
  if ← atWord "elif" then return .branch test body [← g.branch]
  else return .branch test body (← g.elseBlock)

def whileStmt (g : Grammar) : Parser Stmt := do
  expectWord "while"
  let test ← g.testRule
  let body ← g.block
  return .whileLoop test body (← g.elseBlock)

def forStmt (g : Grammar) (isAsync : Bool) : Parser Stmt := do
  expectWord "for"
  let head ← g.targetItems
  let head ← target .store head
  expectWord "in"
  let iter ← g.itemsRule
  let body ← g.block
  return .forLoop head iter body (← g.elseBlock) isAsync

/-- What follows `except`. -/
def handler (g : Grammar) : Parser Handler := do
  if ← atOp ":" then return ⟨none, none, ← g.block⟩
  else
    let type ← g.testRule
    let name ← optionally (← eatWord "as") expectName
    return ⟨some type, name, ← g.block⟩

def tryStmt (g : Grammar) : Parser Stmt := do
  expectWord "try"
  let body ← g.block
  let handlers ← many do optionally (← eatWord "except") g.handler
  let orelse ← if handlers.isEmpty then pure [] else g.elseBlock
  let finalbody ← if ← eatWord "finally" then g.block else pure []
  if handlers.isEmpty && finalbody.isEmpty then fail .expectedHandler
  return .tryBlock body handlers orelse finalbody

def withItem (g : Grammar) : Parser WithItem := do
  let context ← g.testRule
  if ← eatWord "as" then
    let vars ← starOr g.bitOrRule g.bitOrRule
    return ⟨context, some (← target .store vars)⟩
  else return ⟨context, none⟩

def withStmt (g : Grammar) (isAsync : Bool) : Parser Stmt := do
  expectWord "with"
  let first ← g.withItem
  let rest ← afterCommas (pure false) g.withItem
  return .withBlock (first :: rest) (← g.block) isAsync

def functionDef (g : Grammar) (decorators : List Expr) (isAsync : Bool) : Parser Stmt := do
  expectWord "def"
  let name ← expectName
  expectOp "("
  let ps ← g.params ")" true
  expectOp ")"
  let returns ← optionally (← eatOp "->") g.testRule
  return .functionDef name ps (← g.block) decorators returns isAsync

def classDef (g : Grammar) (decorators : List Expr) : Parser Stmt := do
  expectWord "class"
  let name ← expectName
  let (bases, keywords) ←
    if ← eatOp "(" then
      let args ← g.callArgs
      expectOp ")"
      pure args
    else pure ([], [])
  return .classDef name bases keywords (← g.block) decorators

def decorated (g : Grammar) : Parser Stmt := do
  let decorators ← many do
    if ← eatOp "@" then
      let e ← g.testRule
      expectNewline
      return some e
    else return none
  if ← atWord "def" then g.functionDef decorators false
  else if ← atWord "class" then g.classDef decorators
  else if ← eatWord "async" then g.functionDef decorators true
  else fail .expectedDefinition

def matchCase (g : Grammar) : Parser MatchCase := do
  expectWord "case"
  let pattern ← g.casePattern
  let guard ← optionally (← eatWord "if") g.testRule
  return ⟨pattern, guard, ← g.block⟩

/-- The subject of a `match`, if the line reads as the header of one; otherwise nothing is taken. -/
def matchSubject? (g : Grammar) : Parser (Option Expr) := fun ts =>
  match g.itemsRule ts.tail with
  | .ok (subject, ts') =>
    if headKind ts' == .op ":" && headKind ts'.tail == .newline then .ok (some subject, ts')
    else .ok (none, ts)
  | .error _ => .ok (none, ts)

/-- The blocks of a `match`, from the colon of its header on. -/
def matchCases (g : Grammar) : Parser (List MatchCase) := do
  expectOp ":"
  expectNewline
  expectIndent
  let cases ← indented do
    if ← atWord "case" then return [← g.matchCase] else fail .expectedCase
  if cases.isEmpty then fail .expectedCase
  return cases

/-- A statement, or the statements of one line. -/
def statementRule (g : Grammar) : Parser (List Stmt) := do
  match ← peek with
  | .op "@" => one g.decorated
  | .name "if" => one g.branchRule
  | .name "while" => one g.whileStmt
  | .name "for" => one (g.forStmt false)
  | .name "try" => one g.tryStmt
  | .name "with" => one (g.withStmt false)
  | .name "def" => one (g.functionDef [] false)
  | .name "class" => one (g.classDef [])
  | .name "match" => do
    match ← g.matchSubject? with
    | some subject => return [.matchBlock subject (← g.matchCases)]
    | none => g.line
  | .name "async" => do
    advance
    match ← peek with
    | .name "def" => one (g.functionDef [] true)
    | .name "for" => one (g.forStmt true)
    | .name "with" => one (g.withStmt true)
    | _ => fail .expectedAfterAsync
  | _ => g.line
where
  one (p : Parser Stmt) : Parser (List Stmt) := do return [← p]

end Grammar

end Arbiter.Syntax
