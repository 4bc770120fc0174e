import Arbiter.Syntax.Expr.Printer
import Arbiter.Syntax.Stmt

/-! The text of patterns and statements. A statement is a list of lines; the lines of a block are
those of its statements, one step further in. -/

namespace Arbiter.Syntax

/-- The pattern needs brackets under `|` and `as`. -/
def Pattern.isLoose : Pattern → Bool
  | .or _ | .bind _ _ => true
  | _ => false

/-- The text `s` of `p` as an operand of `|` or `as`. -/
def Pattern.asOperand (p : Pattern) (s : String) : String :=
  if p.isLoose then "(" ++ s ++ ")" else s

mutual

/-- The text of a pattern; sequences always stand in square brackets. -/
def Pattern.text : Pattern → String
  | .value e => e.text
  | .singleton c => c.constant.text
  | .sequence patterns => "[" ++ commaJoined (patternTexts patterns) ++ "]"
  | .mapping items rest =>
    let spread := match rest with
      | some name => ["**" ++ name]
      | none => []
    "\x7b" ++ commaJoined (mappingTexts items ++ spread) ++ "\x7d"
  | .cls head patterns keywords =>
    head.text ++ "(" ++ commaJoined (patternTexts patterns ++ keywordPatternTexts keywords) ++ ")"
  | .star name => "*" ++ name.getD "_"
  | .wildcard => "_"
  | .capture name => name
  | .bind pattern name => pattern.asOperand pattern.text ++ " as " ++ name
  | .or patterns => " | ".intercalate (operandTexts patterns)

def patternTexts : List Pattern → List String
  | [] => []
  | p :: ps => p.text :: patternTexts ps

def operandTexts : List Pattern → List String
  | [] => []
  | p :: ps => p.asOperand p.text :: operandTexts ps

def mappingTexts : List MappingItem → List String
  | [] => []
  | ⟨key, pattern⟩ :: rest => (key.text ++ ": " ++ pattern.text) :: mappingTexts rest

def keywordPatternTexts : List KeywordPattern → List String
  | [] => []
  | ⟨attr, pattern⟩ :: rest => (attr ++ "=" ++ pattern.text) :: keywordPatternTexts rest

end

def indentLines (lines : List String) : List String := lines.map ("    " ++ ·)

def asyncText (isAsync : Bool) : String := if isAsync then "async " else ""

/-- `before` and the text of an expression, or nothing. -/
def optionalText (before : String) : Option Expr → String
  | some e => before ++ e.text
  | none => ""

/-- `before` and a name, or nothing. -/
def optionalName (before : String) : Option String → String
  | some name => before ++ name
  | none => ""

def Alias.text (a : Alias) : String := a.name ++ optionalName " as " a.asName

def WithItem.text (item : WithItem) : String :=
  item.context.within Strength.test item.context.text ++ optionalText " as " item.vars

def decoratorLines (decorators : List Expr) : List String :=
  decorators.map fun e => "@" ++ e.within Strength.test e.text

/-- The bases and keywords of a class, in brackets if there are any. -/
def classArguments (bases : List Expr) (keywords : List Keyword) : String :=
  if bases.isEmpty && keywords.isEmpty then ""
  else "(" ++ commaJoined (textsWithin Strength.test bases ++ keywordTexts keywords) ++ ")"

/-- An arm with its word, or nothing for an empty one. -/
def armLines (word : String) (lines : List String) : List String :=
  if lines.isEmpty then [] else word :: indentLines lines

mutual

/-- The lines of a statement, its blocks included. -/
def Stmt.lines : Stmt → List String
  | .functionDef name params body decorators returns isAsync =>
    let result := match returns with
      | some e => " -> " ++ e.within Strength.test e.text
      | none => ""
    decoratorLines decorators ++
      (asyncText isAsync ++ "def " ++ name ++ "(" ++ commaJoined (paramTexts params) ++ ")" ++
        result ++ ":") :: indentLines (blockLines body)
  | .classDef name bases keywords body decorators =>
    decoratorLines decorators ++
      ("class " ++ name ++ classArguments bases keywords ++ ":") :: indentLines (blockLines body)
  | .ret value => ["return" ++ optionalText " " value]
  | .delete targets => ["del " ++ commaJoined (textsWithin Strength.test targets)]
  | .assign targets value =>
    [String.join (targets.map fun t => t.text ++ " = ") ++ value.text]
  | .augAssign target op value => [target.text ++ " " ++ op.symbol ++ "= " ++ value.text]
  | .annAssign target annotation value =>
    [target.text ++ ": " ++ annotation.within Strength.test annotation.text ++
      optionalText " = " value]
  | .forLoop target iter body orelse isAsync =>
    (asyncText isAsync ++ "for " ++ target.text ++ " in " ++ iter.text ++ ":") ::
      indentLines (blockLines body) ++ armLines "else:" (blockLines orelse)
  | .whileLoop test body orelse =>
    ("while " ++ test.text ++ ":") ::
      indentLines (blockLines body) ++ armLines "else:" (blockLines orelse)
  | .branch test body orelse =>
    ("if " ++ test.text ++ ":") ::
      indentLines (blockLines body) ++ armLines "else:" (blockLines orelse)
  | .withBlock items body isAsync =>
    (asyncText isAsync ++ "with " ++ commaJoined (items.map WithItem.text) ++ ":") ::
      indentLines (blockLines body)
  | .raise exc cause => ["raise" ++ optionalText " " exc ++ optionalText " from " cause]
  | .tryBlock body handlers orelse finalbody =>
    "try:" :: indentLines (blockLines body) ++ handlerLines handlers ++
      armLines "else:" (blockLines orelse) ++ armLines "finally:" (blockLines finalbody)
  | .assert test msg => ["assert " ++ test.text ++ optionalText ", " msg]
  | .imports names => ["import " ++ commaJoined (names.map Alias.text)]
  | .importFrom module names level =>
    ["from " ++ .ofList (List.replicate level '.') ++ module.getD "" ++ " import " ++
      commaJoined (names.map Alias.text)]
  | .global names => ["global " ++ commaJoined names]
  | .nonlocal names => ["nonlocal " ++ commaJoined names]
  | .matchBlock subject cases => ("match " ++ subject.text ++ ":") :: indentLines (caseLines cases)
  | .expr value => [value.text]
  | .pass => ["pass"]
  | .breakLoop => ["break"]
  | .continueLoop => ["continue"]

def blockLines : List Stmt → List String
  | [] => []
  | s :: rest => s.lines ++ blockLines rest

def handlerLines : List Handler → List String
  | [] => []
  | ⟨type, name, body⟩ :: rest =>
    ("except" ++ optionalText " " type ++ optionalName " as " name ++ ":") ::
      indentLines (blockLines body) ++ handlerLines rest

def caseLines : List MatchCase → List String
  | [] => []
  | ⟨pattern, guard, body⟩ :: rest =>
    ("case " ++ pattern.text ++ optionalText " if " guard ++ ":") ::
      indentLines (blockLines body) ++ caseLines rest

end

/-- The text of a statement, without a line break at its end. -/
def Stmt.text (s : Stmt) : String := "\n".intercalate s.lines

end Arbiter.Syntax
