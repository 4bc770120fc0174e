import Arbiter.Syntax.Stmt

/-! Changing the names, literals and format texts of a tree and nothing else. Names of attributes,
keyword arguments and imports stay. -/

namespace Arbiter.Syntax

/-- What becomes of names, constants, and the literal pieces and format texts of f-strings. -/
structure Relabeling where
  name : String → String
  constant : Constant → Constant
  piece : String → String
  /-- A format text is not taken apart. Where nothing else is said it stays. -/
  format : String → String := id

mutual

def relabelExpr (r : Relabeling) : Expr → Expr
  | .name id ctx => .name (r.name id) ctx
  | .constant c => .constant (r.constant c)
  | .joinedStr parts => .joinedStr (relabelParts r parts)
  | .attribute value attr ctx => .attribute (relabelExpr r value) attr ctx
  | .subscript value index ctx => .subscript (relabelExpr r value) (relabelExpr r index) ctx
  | .slice lower upper step =>
    .slice (relabelOption r lower) (relabelOption r upper) (relabelOption r step)
  | .starred value ctx => .starred (relabelExpr r value) ctx
  | .tuple elts ctx => .tuple (relabelExprs r elts) ctx
  | .list elts ctx => .list (relabelExprs r elts) ctx
  | .set elts => .set (relabelExprs r elts)
  | .dict items => .dict (relabelDict r items)
  | .binary left op right => .binary (relabelExpr r left) op (relabelExpr r right)
  | .unary op operand => .unary op (relabelExpr r operand)
  | .bool op values => .bool op (relabelExprs r values)
  | .compare left rest => .compare (relabelExpr r left) (relabelComparands r rest)
  | .call func args keywords =>
    .call (relabelExpr r func) (relabelExprs r args) (relabelKeywords r keywords)
  | .ifElse test body orelse =>
    .ifElse (relabelExpr r test) (relabelExpr r body) (relabelExpr r orelse)
  | .lambda params body => .lambda (relabelParams r params) (relabelExpr r body)
  | .listComp elt generators => .listComp (relabelExpr r elt) (relabelGenerators r generators)
  | .setComp elt generators => .setComp (relabelExpr r elt) (relabelGenerators r generators)
  | .generatorExp elt generators =>
    .generatorExp (relabelExpr r elt) (relabelGenerators r generators)
  | .dictComp key value generators =>
    .dictComp (relabelExpr r key) (relabelExpr r value) (relabelGenerators r generators)
  | .await value => .await (relabelExpr r value)
  | .yield value => .yield (relabelOption r value)
  | .yieldFrom value => .yieldFrom (relabelExpr r value)
  | .named target value => .named (relabelExpr r target) (relabelExpr r value)

def relabelExprs (r : Relabeling) : List Expr → List Expr
  | [] => []
  | e :: es => relabelExpr r e :: relabelExprs r es

def relabelOption (r : Relabeling) : Option Expr → Option Expr
  | none => none
  | some e => some (relabelExpr r e)

def relabelParts (r : Relabeling) : List FStringPart → List FStringPart
  | [] => []
  | .literal s :: rest => .literal (r.piece s) :: relabelParts r rest
  | .formatted value conversion spec :: rest =>
    .formatted (relabelExpr r value) conversion (spec.map r.format) :: relabelParts r rest

def relabelDict (r : Relabeling) : List DictItem → List DictItem
  | [] => []
  | .entry key value :: rest =>
    .entry (relabelExpr r key) (relabelExpr r value) :: relabelDict r rest
  | .spread value :: rest => .spread (relabelExpr r value) :: relabelDict r rest

def relabelComparands (r : Relabeling) : List Comparand → List Comparand
  | [] => []
  | ⟨op, value⟩ :: rest => ⟨op, relabelExpr r value⟩ :: relabelComparands r rest

def relabelKeywords (r : Relabeling) : List Keyword → List Keyword
  | [] => []
  | ⟨arg, value⟩ :: rest => ⟨arg, relabelExpr r value⟩ :: relabelKeywords r rest

def relabelGenerators (r : Relabeling) : List Generator → List Generator
  | [] => []
  | ⟨target, iter, ifs, isAsync⟩ :: rest =>
    ⟨relabelExpr r target, relabelExpr r iter, relabelExprs r ifs, isAsync⟩ ::
      relabelGenerators r rest

def relabelArgument (r : Relabeling) : Argument → Argument
  | ⟨name, annotation⟩ => ⟨r.name name, relabelOption r annotation⟩

def relabelParams (r : Relabeling) : List Param → List Param
  | [] => []
  | .plain arg default :: rest =>
    .plain (relabelArgument r arg) (relabelOption r default) :: relabelParams r rest
  | .posOnlyMarker :: rest => .posOnlyMarker :: relabelParams r rest
  | .varArgs none :: rest => .varArgs none :: relabelParams r rest
  | .varArgs (some arg) :: rest =>
    .varArgs (some (relabelArgument r arg)) :: relabelParams r rest
  | .kwArgs arg :: rest => .kwArgs (relabelArgument r arg) :: relabelParams r rest

end

mutual

def relabelPattern (r : Relabeling) : Pattern → Pattern
  | .value e => .value (relabelExpr r e)
  | .singleton c => .singleton c
  | .sequence patterns => .sequence (relabelPatterns r patterns)
  | .mapping items rest => .mapping (relabelMapping r items) (rest.map r.name)
  | .cls head patterns keywords =>
    .cls (relabelExpr r head) (relabelPatterns r patterns) (relabelKeywordPatterns r keywords)
  | .star name => .star (name.map r.name)
  | .wildcard => .wildcard
  | .capture name => .capture (r.name name)
  | .bind pattern name => .bind (relabelPattern r pattern) (r.name name)
  | .or patterns => .or (relabelPatterns r patterns)

def relabelPatterns (r : Relabeling) : List Pattern → List Pattern
  | [] => []
  | p :: ps => relabelPattern r p :: relabelPatterns r ps

def relabelMapping (r : Relabeling) : List MappingItem → List MappingItem
  | [] => []
  | ⟨key, pattern⟩ :: rest => ⟨relabelExpr r key, relabelPattern r pattern⟩ :: relabelMapping r rest

def relabelKeywordPatterns (r : Relabeling) : List KeywordPattern → List KeywordPattern
  | [] => []
  | ⟨attr, pattern⟩ :: rest => ⟨attr, relabelPattern r pattern⟩ :: relabelKeywordPatterns r rest

end

def relabelWithItem (r : Relabeling) (item : WithItem) : WithItem :=
  ⟨relabelExpr r item.context, relabelOption r item.vars⟩

mutual

def relabelStmt (r : Relabeling) : Stmt → Stmt
  | .functionDef name params body decorators returns isAsync =>
    .functionDef (r.name name) (relabelParams r params) (relabelBlock r body)
      (relabelExprs r decorators) (relabelOption r returns) isAsync
  | .classDef name bases keywords body decorators =>
    .classDef (r.name name) (relabelExprs r bases) (relabelKeywords r keywords)
      (relabelBlock r body) (relabelExprs r decorators)
  | .ret value => .ret (relabelOption r value)
  | .delete targets => .delete (relabelExprs r targets)
  | .assign targets value => .assign (relabelExprs r targets) (relabelExpr r value)
  | .augAssign target op value => .augAssign (relabelExpr r target) op (relabelExpr r value)
  | .annAssign target annotation value =>
    .annAssign (relabelExpr r target) (relabelExpr r annotation) (relabelOption r value)
  | .forLoop target iter body orelse isAsync =>
    .forLoop (relabelExpr r target) (relabelExpr r iter) (relabelBlock r body)
      (relabelBlock r orelse) isAsync
  | .whileLoop test body orelse =>
    .whileLoop (relabelExpr r test) (relabelBlock r body) (relabelBlock r orelse)
  | .branch test body orelse =>
    .branch (relabelExpr r test) (relabelBlock r body) (relabelBlock r orelse)
  | .withBlock items body isAsync =>
    .withBlock (items.map (relabelWithItem r)) (relabelBlock r body) isAsync
  | .raise exc cause => .raise (relabelOption r exc) (relabelOption r cause)
  | .tryBlock body handlers orelse finalbody =>
    .tryBlock (relabelBlock r body) (relabelHandlers r handlers) (relabelBlock r orelse)
      (relabelBlock r finalbody)
  | .assert test msg => .assert (relabelExpr r test) (relabelOption r msg)
  | .imports names => .imports names
  | .importFrom module names level => .importFrom module names level
  | .global names => .global (names.map r.name)
  | .nonlocal names => .nonlocal (names.map r.name)
  | .matchBlock subject cases => .matchBlock (relabelExpr r subject) (relabelCases r cases)
  | .expr value => .expr (relabelExpr r value)
  | .pass => .pass
  | .breakLoop => .breakLoop
  | .continueLoop => .continueLoop

def relabelBlock (r : Relabeling) : List Stmt → List Stmt
  | [] => []
  | s :: rest => relabelStmt r s :: relabelBlock r rest

def relabelHandlers (r : Relabeling) : List Handler → List Handler
  | [] => []
  | ⟨type, name, body⟩ :: rest =>
    ⟨relabelOption r type, name.map r.name, relabelBlock r body⟩ :: relabelHandlers r rest

def relabelCases (r : Relabeling) : List MatchCase → List MatchCase
  | [] => []
  | ⟨pattern, guard, body⟩ :: rest =>
    ⟨relabelPattern r pattern, relabelOption r guard, relabelBlock r body⟩ :: relabelCases r rest

end

end Arbiter.Syntax
