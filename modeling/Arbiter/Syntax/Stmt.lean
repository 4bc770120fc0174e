import Arbiter.Syntax.Expr

/-! Patterns and statements of the analysed language. -/

namespace Arbiter.Syntax

mutual

/-- A pattern of a `case` clause. -/
inductive Pattern
  /-- A literal or dotted name, compared by equality. -/
  | value (e : Expr)
  /-- A constant that is compared by identity. -/
  | singleton (c : WordConstant)
  | sequence (patterns : List Pattern)
  | mapping (items : List MappingItem) (rest : Option String)
  | cls (head : Expr) (patterns : List Pattern) (keywords : List KeywordPattern)
  /-- A star inside a sequence; without a name it binds nothing. -/
  | star (name : Option String)
  | wildcard
  | capture (name : String)
  | bind (pattern : Pattern) (name : String)
  | or (patterns : List Pattern)

structure MappingItem where
  key : Expr
  pattern : Pattern

structure KeywordPattern where
  attr : String
  pattern : Pattern

end

structure WithItem where
  context : Expr
  vars : Option Expr

structure Alias where
  name : String
  asName : Option String
deriving DecidableEq

mutual

inductive Stmt
  | functionDef (name : String) (params : List Param) (body : List Stmt) (decorators : List Expr)
      (returns : Option Expr) (isAsync : Bool)
  | classDef (name : String) (bases : List Expr) (keywords : List Keyword) (body : List Stmt)
      (decorators : List Expr)
  | ret (value : Option Expr)
  | delete (targets : List Expr)
  | assign (targets : List Expr) (value : Expr)
  | augAssign (target : Expr) (op : BinaryOp) (value : Expr)
  | annAssign (target annotation : Expr) (value : Option Expr)
  | forLoop (target iter : Expr) (body orelse : List Stmt) (isAsync : Bool)
  | whileLoop (test : Expr) (body orelse : List Stmt)
  /-- An `elif` is the only statement of its `orelse`. -/
  | branch (test : Expr) (body orelse : List Stmt)
  | withBlock (items : List WithItem) (body : List Stmt) (isAsync : Bool)
  | raise (exc cause : Option Expr)
  | tryBlock (body : List Stmt) (handlers : List Handler) (orelse finalbody : List Stmt)
  | assert (test : Expr) (msg : Option Expr)
  | imports (names : List Alias)
  | importFrom (module : Option String) (names : List Alias) (level : Nat)
  | global (names : List String)
  | nonlocal (names : List String)
  | matchBlock (subject : Expr) (cases : List MatchCase)
  | expr (value : Expr)
  | pass
  | breakLoop
  | continueLoop

structure Handler where
  type : Option Expr
  name : Option String
  body : List Stmt

structure MatchCase where
  pattern : Pattern
  guard : Option Expr
  body : List Stmt

end

end Arbiter.Syntax
