import Arbiter.Syntax.Parser.Operator

/-! Statements that end with their line. -/

namespace Arbiter.Syntax

open Syntax.Parser

namespace Parser

def dottedName : Parser String := do
  let first ← expectName
  let rest ← many do optionally (← eatOp ".") expectName
  return ".".intercalate (first :: rest)

/-- A name read by `p`, and the name it is given here. -/
def aliasOf (p : Parser String) : Parser Alias := do
  let name ← p
  return ⟨name, ← optionally (← eatWord "as") expectName⟩

/-- The number of points at the front, which a token may hold three of. -/
def relativeLevel : Parser Nat := do
  let steps ← many do
    if ← eatOp "." then return some 1
    else if ← eatOp "..." then return some 3
    else return none
  return steps.foldl (· + ·) 0

/-- The names after `import`: a star, or a list that may stand in brackets. -/
def importedNames : Parser (List Alias) := do
  if ← eatOp "*" then return [⟨"*", none⟩]
  else if ← eatOp "(" then
    let first ← aliasOf expectName
    let rest ← afterCommas (atOp ")") (aliasOf expectName)
    expectOp ")"
    return first :: rest
  else
    let first ← aliasOf expectName
    let rest ← afterCommas (pure false) (aliasOf expectName)
    return first :: rest

def importFrom : Parser Stmt := do
  expectWord "from"
  let level ← relativeLevel
  let module ← optionally (!(← atWord "import")) dottedName
  if module.isNone && level == 0 then fail .expectedModule
  expectWord "import"
  return .importFrom module (← importedNames) level

def nameList : Parser (List String) := do
  let first ← expectName
  let rest ← afterCommas (pure false) expectName
  return first :: rest

/-- Takes the operator of an augmented assignment. -/
def eatAugmented? : Parser (Option BinaryOp) := do
  match ← peek with
  | .op symbol =>
    match BinaryOp.ofAugmented? symbol with
    | some op => do
      advance
      return some op
    | none => return none
  | _ => return none

end Parser

namespace Grammar

/-- An expression, or an assignment of one of the three kinds. -/
def exprStmt (g : Grammar) : Parser Stmt := do
  let first ← g.itemsOrYield
  match ← eatAugmented? with
  | some op => do
    let head ← target .store first
    return .augAssign head op (← g.itemsOrYield)
  | none =>
    if ← eatOp ":" then
      let head ← target .store first
      let annotation ← g.testRule
      return .annAssign head annotation (← optionally (← eatOp "=") g.itemsOrYield)
    else
      match ← many do optionally (← eatOp "=") g.itemsOrYield with
      | [] => return .expr first
      | second :: more => do
        let all := first :: second :: more
        let heads ← targets .store all.dropLast
        return .assign heads (more.getLastD second)

/-- A deletion; the items of a tuple are deleted one by one. -/
def deletion (g : Grammar) : Parser Stmt := do
  let found ← match ← g.targetItems with
    | .tuple elts _ => targets .del elts
    | e => targets .del [e]
  return .delete found

def raiseStmt (g : Grammar) : Parser Stmt := do
  match ← optionally (← atExpr) g.testRule with
  | none => return .raise none none
  | some exc => return .raise (some exc) (← optionally (← eatWord "from") g.testRule)

def smallStmt (g : Grammar) : Parser Stmt := do
  match ← peek with
  | .name "pass" => after (pure .pass)
  | .name "break" => after (pure .breakLoop)
  | .name "continue" => after (pure .continueLoop)
  | .name "return" => after do return .ret (← optionally (← atExpr) g.itemsRule)
  | .name "raise" => after g.raiseStmt
  | .name "global" => after (.global <$> nameList)
  | .name "nonlocal" => after (.nonlocal <$> nameList)
  | .name "del" => after g.deletion
  | .name "assert" => after do
    let test ← g.testRule
    return .assert test (← optionally (← eatOp ",") g.testRule)
  | .name "import" => after do
    let first ← aliasOf dottedName
    let rest ← afterCommas (pure false) (aliasOf dottedName)
    return .imports (first :: rest)
  | .name "from" => importFrom
  | _ => g.exprStmt
where
  after (p : Parser Stmt) : Parser Stmt := do
    advance
    p

/-- The statements of one line. -/
def line (g : Grammar) : Parser (List Stmt) := do
  let first ← g.smallStmt
  let rest ← many do
    if !(← eatOp ";") then return none
    else if ← at? .newline then return none
    else some <$> g.smallStmt
  expectNewline
  return first :: rest

end Grammar

end Arbiter.Syntax
