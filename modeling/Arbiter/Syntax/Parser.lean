import Arbiter.Syntax.Parser.Compound

/-! Reading programs and expressions. The grammar is unfolded to a depth of one level for each
character of the text: a level takes a token before it uses the next one, so that the last level is
never reached. -/

namespace Arbiter.Syntax

open Syntax.Parser

/-- The grammar unfolded `n` levels deep. -/
def grammar : Nat → Grammar
  | 0 => .empty
  | n + 1 =>
    let g := grammar n
    { test := g.testRule
      orTest := g.orTestRule
      notTest := g.notTestRule
      bitOr := g.bitOrRule
      factor := g.factorRule
      standalone := g.standaloneRule
      pattern := g.patternRule
      closedPattern := g.closedPatternRule
      statement := g.statementRule
      branch := g.branchRule }

/-- The grammar that is deep enough for a text. -/
def grammarFor (source : String) : Grammar := grammar (source.length + 1)

/-- The statements of a whole program. -/
def Grammar.program (g : Grammar) : Parser (List Stmt) := do
  let parts ← many do
    match ← peek with
    | .endMarker => return none
    | .newline => do
      advance
      return some []
    | _ => some <$> g.statement
  return parts.flatten

/-- Reads a program. -/
def parseProgram (source : String) : Except Fault (List Stmt) := do
  let ts ← tokenize source
  let (body, _) ← (grammarFor source).program ts
  return body

/-- Reads a text that is one expression. -/
def parseExpr (source : String) : Except Fault Expr := do
  let ts ← tokenize source
  let (e, _) ← (grammarFor source).standalone ts
  return e

end Arbiter.Syntax
