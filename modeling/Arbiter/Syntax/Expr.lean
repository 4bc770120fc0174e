/-! Expressions of the analysed language, and which of them may be targets. Fields that belong together in
pairs, such as a key and its value, are one item, so that no list can be shorter than its partner. -/

namespace Arbiter.Syntax

/-- Whether a name is read, bound or deleted. -/
inductive Context
  | load
  | store
  | del
deriving DecidableEq

/-- Literals keep the text they are written with; adjacent strings are joined by a blank. -/
inductive Constant
  | int (text : String)
  | float (text : String)
  | complex (text : String)
  | str (text : String)
  | bytes (text : String)
  | bool (b : Bool)
  | none
  | ellipsis
deriving DecidableEq

/-- The constants that are written as words. -/
inductive WordConstant
  | none
  | bool (b : Bool)
deriving DecidableEq

def WordConstant.constant : WordConstant → Constant
  | none => .none
  | bool b => .bool b

instance : Coe WordConstant Constant := ⟨WordConstant.constant⟩

inductive BinaryOp
  | add
  | sub
  | mult
  | matMult
  | div
  | floorDiv
  | mod
  | pow
  | leftShift
  | rightShift
  | bitOr
  | bitXor
  | bitAnd
deriving DecidableEq

namespace BinaryOp

def symbol : BinaryOp → String
  | add => "+"
  | sub => "-"
  | mult => "*"
  | matMult => "@"
  | div => "/"
  | floorDiv => "//"
  | mod => "%"
  | pow => "**"
  | leftShift => "<<"
  | rightShift => ">>"
  | bitOr => "|"
  | bitXor => "^"
  | bitAnd => "&"

def all : List BinaryOp :=
  [add, sub, mult, matMult, div, floorDiv, mod, pow, leftShift, rightShift, bitOr, bitXor, bitAnd]

def ofSymbol? (s : String) : Option BinaryOp := all.find? (·.symbol == s)

/-- The operator of an augmented assignment such as `+=`. -/
def ofAugmented? (s : String) : Option BinaryOp := all.find? (·.symbol ++ "=" == s)

theorem ofSymbol?_symbol (op : BinaryOp) : ofSymbol? op.symbol = some op := by
  cases op <;> rfl

end BinaryOp

inductive UnaryOp
  | not
  | invert
  | plus
  | minus
deriving DecidableEq

inductive BoolOp
  | and
  | or
deriving DecidableEq

inductive CompareOp
  | eq
  | notEq
  | lt
  | le
  | gt
  | ge
  | is
  | isNot
  | isIn
  | notIn
deriving DecidableEq

def CompareOp.symbol : CompareOp → String
  | eq => "=="
  | notEq => "!="
  | lt => "<"
  | le => "<="
  | gt => ">"
  | ge => ">="
  | is => "is"
  | isNot => "is not"
  | isIn => "in"
  | notIn => "not in"

mutual

inductive Expr
  | name (id : String) (ctx : Context)
  | constant (value : Constant)
  | joinedStr (parts : List FStringPart)
  | attribute (value : Expr) (attr : String) (ctx : Context)
  | subscript (value index : Expr) (ctx : Context)
  | slice (lower upper step : Option Expr)
  | starred (value : Expr) (ctx : Context)
  | tuple (elts : List Expr) (ctx : Context)
  | list (elts : List Expr) (ctx : Context)
  | set (elts : List Expr)
  | dict (items : List DictItem)
  | binary (left : Expr) (op : BinaryOp) (right : Expr)
  | unary (op : UnaryOp) (operand : Expr)
  | bool (op : BoolOp) (values : List Expr)
  | compare (left : Expr) (rest : List Comparand)
  | call (func : Expr) (args : List Expr) (keywords : List Keyword)
  | ifElse (test body orelse : Expr)
  | lambda (params : List Param) (body : Expr)
  | listComp (elt : Expr) (generators : List Generator)
  | setComp (elt : Expr) (generators : List Generator)
  | generatorExp (elt : Expr) (generators : List Generator)
  | dictComp (key value : Expr) (generators : List Generator)
  | await (value : Expr)
  | yield (value : Option Expr)
  | yieldFrom (value : Expr)
  | named (target value : Expr)

/-- An entry of a dictionary display; a spread takes over a whole mapping. -/
inductive DictItem
  | entry (key value : Expr)
  | spread (value : Expr)

/-- A comparison operator and what stands on its right. -/
structure Comparand where
  op : CompareOp
  value : Expr

/-- A keyword argument; without a name it is a whole mapping. -/
structure Keyword where
  arg : Option String
  value : Expr

/-- A `for` of a comprehension with its conditions. -/
structure Generator where
  target : Expr
  iter : Expr
  ifs : List Expr
  isAsync : Bool

structure Argument where
  name : String
  annotation : Option Expr

/-- An entry of a parameter list, in source order. -/
inductive Param
  | plain (arg : Argument) (default : Option Expr)
  /-- The slash after the positional-only parameters. -/
  | posOnlyMarker
  /-- A star with a name, or a bare one. -/
  | varArgs (arg : Option Argument)
  | kwArgs (arg : Argument)

/-- A piece of an f-string: literal text, or a field with its raw format text. -/
inductive FStringPart
  | literal (text : String)
  | formatted (value : Expr) (conversion : Option Char) (spec : Option String)

end

mutual

/-- The expression as a target in the context `ctx`; only names, attributes, subscripts, stars and
displays of such can be one. -/
def Expr.asTarget? (ctx : Context) : Expr → Option Expr
  | .name id _ => some (.name id ctx)
  | .attribute value attr _ => some (.attribute value attr ctx)
  | .subscript value index _ => some (.subscript value index ctx)
  | .starred value _ => (value.asTarget? ctx).map (.starred · ctx)
  | .tuple elts _ => (asTargets? ctx elts).map (.tuple · ctx)
  | .list elts _ => (asTargets? ctx elts).map (.list · ctx)
  | _ => none

def asTargets? (ctx : Context) : List Expr → Option (List Expr)
  | [] => some []
  | e :: es => do
    let e ← e.asTarget? ctx
    let es ← asTargets? ctx es
    return e :: es

end

end Arbiter.Syntax
