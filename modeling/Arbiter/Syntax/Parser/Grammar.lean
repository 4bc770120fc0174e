import Arbiter.Syntax.Expr
import Arbiter.Syntax.Parser.Basic
import Arbiter.Syntax.Stmt
import Arbiter.Syntax.Token.Lexer

/-! The recursive parts of the grammar. Each rule is written over a `Grammar` that reads the parts
nested inside it, and a rule takes a token before it uses one. -/

namespace Arbiter.Syntax

open Syntax.Parser

/-- Parsers of the nested parts. -/
structure Grammar where
  /-- An expression without bare commas. -/
  test : Parser Expr
  orTest : Parser Expr
  notTest : Parser Expr
  bitOr : Parser Expr
  factor : Parser Expr
  /-- A whole text that is one expression. -/
  standalone : Parser Expr
  pattern : Parser Pattern
  closedPattern : Parser Pattern
  statement : Parser (List Stmt)
  /-- What follows `if` or `elif`, with that word. -/
  branch : Parser Stmt

/-- The grammar that reads nothing. -/
def Grammar.empty : Grammar :=
  ⟨fail .tooDeep, fail .tooDeep, fail .tooDeep, fail .tooDeep, fail .tooDeep, fail .tooDeep,
    fail .tooDeep, fail .tooDeep, fail .tooDeep, fail .tooDeep⟩

/-- Reads a text that stands apart, such as the expression of an f-string field. -/
def Grammar.read (g : Grammar) (source : String) : Except Cause Expr :=
  match tokenize source >>= g.standalone.run with
  | .ok (e, _) => .ok e
  | .error fault => .error fault.cause

/-- The token can be the first of an expression. -/
def startsExpr : TokenKind → Bool
  | .name word =>
    !isKeyword word || ["True", "False", "None", "not", "lambda", "await"].contains word
  | .number _ | .string _ => true
  | .op symbol => ["(", "[", "\x7b", "-", "+", "~", "*", "..."].contains symbol
  | _ => false

namespace Parser

def atExpr : Parser Bool := return startsExpr (← peek)

/-- The next tokens start a `for` clause of a comprehension. -/
def atGenerator : Parser Bool := do
  if ← atWord "for" then return true
  else if ← atWord "async" then return (← peekSecond) == .name "for"
  else return false

/-- The expression as a target. -/
def target (ctx : Context) (e : Expr) : Parser Expr :=
  match e.asTarget? ctx with
  | some t => pure t
  | none => fail .notAssignable

def targets (ctx : Context) (es : List Expr) : Parser (List Expr) :=
  match asTargets? ctx es with
  | some ts => pure ts
  | none => fail .notAssignable

/-- A star before an operand, or `item`. -/
def starOr (operand item : Parser Expr) : Parser Expr := do
  if ← eatOp "*" then return .starred (← operand) .load
  else item

/-- One item, or a tuple where a comma follows it. -/
def itemOrTuple (item : Parser Expr) : Parser Expr := do
  let first ← item
  if ← atOp "," then
    let rest ← afterCommas (not <$> atExpr) item
    return .tuple (first :: rest) .load
  else return first

end Parser

end Arbiter.Syntax
