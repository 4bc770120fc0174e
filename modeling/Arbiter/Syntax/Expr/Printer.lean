import Arbiter.Syntax.Expr

/-! The text of an expression. Brackets follow from the binding strengths alone, so that trees which
differ in redundant brackets have one text. -/

namespace Arbiter.Syntax

/-! How tightly the forms of expressions bind, loosest first. -/

namespace Strength

def yield : Nat := 1
def named : Nat := 2
def test : Nat := 3
def or : Nat := 4
def and : Nat := 5
def not : Nat := 6
def compare : Nat := 7
def bitOr : Nat := 8
def bitXor : Nat := 9
def bitAnd : Nat := 10
def shift : Nat := 11
def sum : Nat := 12
def term : Nat := 13
def factor : Nat := 14
def power : Nat := 15
def await : Nat := 16
def atom : Nat := 17

end Strength

def BinaryOp.strength : BinaryOp → Nat
  | bitOr => Strength.bitOr
  | bitXor => Strength.bitXor
  | bitAnd => Strength.bitAnd
  | leftShift | rightShift => Strength.shift
  | add | sub => Strength.sum
  | mult | matMult | div | floorDiv | mod => Strength.term
  | pow => Strength.power

/-- The least strength of the left operand. A power groups to the right, all else to the left. -/
def BinaryOp.leftStrength (op : BinaryOp) : Nat :=
  if op = .pow then Strength.power + 1 else op.strength

def BinaryOp.rightStrength (op : BinaryOp) : Nat :=
  if op = .pow then Strength.factor else op.strength + 1

def UnaryOp.strength : UnaryOp → Nat
  | not => Strength.not
  | invert | plus | minus => Strength.factor

/-- A unary operator with the blank that a word needs. -/
def UnaryOp.text : UnaryOp → String
  | not => "not "
  | invert => "~"
  | plus => "+"
  | minus => "-"

def BoolOp.strength : BoolOp → Nat
  | and => Strength.and
  | or => Strength.or

def BoolOp.word : BoolOp → String
  | and => "and"
  | or => "or"

def Expr.strength : Expr → Nat
  | .yield _ | .yieldFrom _ => Strength.yield
  | .named _ _ => Strength.named
  | .lambda _ _ | .ifElse _ _ _ => Strength.test
  | .bool op _ => op.strength
  | .unary op _ => op.strength
  | .compare _ _ => Strength.compare
  | .binary _ op _ => op.strength
  | .await _ => Strength.await
  | _ => Strength.atom

/-- The text `s` of `e` where an operand has to bind at least as tightly as `least`. -/
def Expr.within (least : Nat) (e : Expr) (s : String) : String :=
  if e.strength < least then "(" ++ s ++ ")" else s

def Constant.text : Constant → String
  | .int s | .float s | .complex s | .str s | .bytes s => s
  | .bool true => "True"
  | .bool false => "False"
  | .none => "None"
  | .ellipsis => "..."

/-- Literal text of an f-string, with its braces doubled. -/
def doubleBraces (s : String) : String :=
  .ofList <| s.toList.flatMap fun c => if c = '\x7b' ∨ c = '\x7d' then [c, c] else [c]

def commaJoined (texts : List String) : String := ", ".intercalate texts

/-- The items of a tuple; a single one has a comma after it. -/
def tupleText (texts : List String) : String :=
  commaJoined texts ++ if texts.length = 1 then "," else ""

mutual

/-- The text of an expression that stands alone. -/
def Expr.text : Expr → String
  | .name id _ => id
  | .constant c => c.text
  | .joinedStr parts => "f\"" ++ fStringText parts ++ "\""
  | .attribute value attr _ => value.within Strength.atom value.text ++ "." ++ attr
  | .subscript value (.tuple elts _) _ =>
    let index := if elts.isEmpty then "()" else tupleText (textsWithin Strength.test elts)
    value.within Strength.atom value.text ++ "[" ++ index ++ "]"
  | .subscript value index _ =>
    value.within Strength.atom value.text ++ "[" ++ index.within Strength.test index.text ++ "]"
  | .slice lower upper step =>
    optionText "" lower ++ ":" ++ optionText "" upper ++ optionText ":" step
  | .starred value _ => "*" ++ value.within Strength.bitOr value.text
  | .tuple elts _ => "(" ++ tupleText (textsWithin Strength.test elts) ++ ")"
  | .list elts _ => "[" ++ commaJoined (textsWithin Strength.test elts) ++ "]"
  | .set elts =>
    if elts.isEmpty then "\x7b*()\x7d"
    else "\x7b" ++ commaJoined (textsWithin Strength.test elts) ++ "\x7d"
  | .dict items => "\x7b" ++ commaJoined (dictTexts items) ++ "\x7d"
  | .binary left op right =>
    left.within op.leftStrength left.text ++ " " ++ op.symbol ++ " " ++
      right.within op.rightStrength right.text
  | .unary op operand => op.text ++ operand.within op.strength operand.text
  | .bool op values =>
    (" " ++ op.word ++ " ").intercalate (textsWithin (op.strength + 1) values)
  | .compare left rest => left.within (Strength.compare + 1) left.text ++ comparandsText rest
  | .call func args keywords =>
    func.within Strength.atom func.text ++ "(" ++
      commaJoined (textsWithin Strength.test args ++ keywordTexts keywords) ++ ")"
  | .ifElse test body orelse =>
    body.within Strength.or body.text ++ " if " ++ test.within Strength.or test.text ++ " else " ++
      orelse.within Strength.test orelse.text
  | .lambda params body =>
    "lambda" ++ (if params.isEmpty then "" else " " ++ commaJoined (paramTexts params)) ++ ": " ++
      body.within Strength.test body.text
  | .listComp elt generators =>
    "[" ++ elt.within Strength.test elt.text ++ generatorsText generators ++ "]"
  | .setComp elt generators =>
    "\x7b" ++ elt.within Strength.test elt.text ++ generatorsText generators ++ "\x7d"
  | .generatorExp elt generators =>
    "(" ++ elt.within Strength.test elt.text ++ generatorsText generators ++ ")"
  | .dictComp key value generators =>
    "\x7b" ++ key.within Strength.test key.text ++ ": " ++ value.within Strength.test value.text ++
      generatorsText generators ++ "\x7d"
  | .await value => "await " ++ value.within Strength.atom value.text
  | .yield value => "yield" ++ optionText " " value
  | .yieldFrom value => "yield from " ++ value.within Strength.test value.text
  | .named target value =>
    target.within Strength.atom target.text ++ " := " ++ value.within Strength.test value.text

/-- The texts of operands that have to bind at least as tightly as `least`. -/
def textsWithin (least : Nat) : List Expr → List String
  | [] => []
  | e :: es => e.within least e.text :: textsWithin least es

/-- An expression that may be missing, after `mark`. -/
def optionText (mark : String) : Option Expr → String
  | none => ""
  | some e => mark ++ e.within Strength.test e.text

def fStringText : List FStringPart → String
  | [] => ""
  | .literal s :: rest => doubleBraces s ++ fStringText rest
  | .formatted value conversion spec :: rest =>
    "\x7b" ++ value.within Strength.or value.text ++
      (match conversion with
        | some c => "!" ++ c.toString
        | none => "") ++
      (match spec with
        | some s => ":" ++ s
        | none => "") ++
      "\x7d" ++ fStringText rest

def dictTexts : List DictItem → List String
  | [] => []
  | .entry key value :: rest =>
    (key.within Strength.test key.text ++ ": " ++ value.within Strength.test value.text) ::
      dictTexts rest
  | .spread value :: rest => ("**" ++ value.within Strength.bitOr value.text) :: dictTexts rest

def comparandsText : List Comparand → String
  | [] => ""
  | ⟨op, value⟩ :: rest =>
    " " ++ op.symbol ++ " " ++ value.within (Strength.compare + 1) value.text ++ comparandsText rest

def keywordTexts : List Keyword → List String
  | [] => []
  | ⟨some arg, value⟩ :: rest =>
    (arg ++ "=" ++ value.within Strength.test value.text) :: keywordTexts rest
  | ⟨none, value⟩ :: rest => ("**" ++ value.within Strength.bitOr value.text) :: keywordTexts rest

def generatorsText : List Generator → String
  | [] => ""
  | ⟨target, iter, ifs, isAsync⟩ :: rest =>
    (if isAsync then " async" else "") ++ " for " ++ target.within Strength.test target.text ++
      " in " ++ iter.within Strength.or iter.text ++ conditionsText ifs ++ generatorsText rest

def conditionsText : List Expr → String
  | [] => ""
  | e :: es => " if " ++ e.within Strength.or e.text ++ conditionsText es

def argumentText : Argument → String
  | ⟨name, annotation⟩ => name ++ optionText ": " annotation

/-- The texts of parameters. Blanks stand around the sign of a default only after an annotation. -/
def paramTexts : List Param → List String
  | [] => []
  | .plain arg default :: rest =>
    (argumentText arg ++ optionText (if arg.annotation.isSome then " = " else "=") default) ::
      paramTexts rest
  | .posOnlyMarker :: rest => "/" :: paramTexts rest
  | .varArgs none :: rest => "*" :: paramTexts rest
  | .varArgs (some arg) :: rest => ("*" ++ argumentText arg) :: paramTexts rest
  | .kwArgs arg :: rest => ("**" ++ argumentText arg) :: paramTexts rest

end

end Arbiter.Syntax
