import Arbiter.Syntax.Stmt

/-! The labels of a tree: its names and literals, in the order in which they are numbered. Targets
come before values here, and the body of a definition before its decorators. -/

namespace Arbiter.Syntax

inductive LiteralKind
  | int
  | float
  | str
deriving DecidableEq

/-- A literal that is numbered. -/
structure Literal where
  kind : LiteralKind
  text : String
deriving DecidableEq

inductive Label
  | name (id : String)
  | literal (l : Literal)
deriving DecidableEq

/-- Whole and fractional numbers and strings are numbered; other constants stay as they are. -/
def literal? : Constant → Option Literal
  | .int text => some ⟨.int, text⟩
  | .float text => some ⟨.float, text⟩
  | .str text => some ⟨.str, text⟩
  | _ => none

mutual

def exprLabels : Expr → List Label
  | .name id _ => [.name id]
  | .constant c => (literal? c).toList.map .literal
  | .joinedStr parts => partLabels parts
  | .attribute value _ _ => exprLabels value
  | .subscript value index _ => exprLabels value ++ exprLabels index
  | .slice lower upper step => optionLabels lower ++ optionLabels upper ++ optionLabels step
  | .starred value _ => exprLabels value
  | .tuple elts _ => listLabels elts
  | .list elts _ => listLabels elts
  | .set elts => listLabels elts
  | .dict items => dictLabels items
  | .binary left _ right => exprLabels left ++ exprLabels right
  | .unary _ operand => exprLabels operand
  | .bool _ values => listLabels values
  | .compare left rest => exprLabels left ++ comparandLabels rest
  | .call func args keywords => exprLabels func ++ listLabels args ++ keywordLabels keywords
  | .ifElse test body orelse => exprLabels test ++ exprLabels body ++ exprLabels orelse
  | .lambda params body => paramLabels params ++ exprLabels body
  | .listComp elt generators => exprLabels elt ++ generatorLabels generators
  | .setComp elt generators => exprLabels elt ++ generatorLabels generators
  | .generatorExp elt generators => exprLabels elt ++ generatorLabels generators
  | .dictComp key value generators =>
    exprLabels key ++ exprLabels value ++ generatorLabels generators
  | .await value => exprLabels value
  | .yield value => optionLabels value
  | .yieldFrom value => exprLabels value
  | .named target value => exprLabels target ++ exprLabels value

def listLabels : List Expr → List Label
  | [] => []
  | e :: es => exprLabels e ++ listLabels es

def optionLabels : Option Expr → List Label
  | none => []
  | some e => exprLabels e

/-- A literal piece is numbered together with the strings of the same text. -/
def partLabels : List FStringPart → List Label
  | [] => []
  | .literal s :: rest => .literal ⟨.str, s⟩ :: partLabels rest
  | .formatted value _ _ :: rest => exprLabels value ++ partLabels rest

def dictLabels : List DictItem → List Label
  | [] => []
  | .entry key value :: rest => exprLabels key ++ exprLabels value ++ dictLabels rest
  | .spread value :: rest => exprLabels value ++ dictLabels rest

def comparandLabels : List Comparand → List Label
  | [] => []
  | ⟨_, value⟩ :: rest => exprLabels value ++ comparandLabels rest

def keywordLabels : List Keyword → List Label
  | [] => []
  | ⟨_, value⟩ :: rest => exprLabels value ++ keywordLabels rest

def generatorLabels : List Generator → List Label
  | [] => []
  | ⟨target, iter, ifs, _⟩ :: rest =>
    exprLabels target ++ exprLabels iter ++ listLabels ifs ++ generatorLabels rest

def argumentLabels : Argument → List Label
  | ⟨name, annotation⟩ => .name name :: optionLabels annotation

def paramLabels : List Param → List Label
  | [] => []
  | .plain arg default :: rest => argumentLabels arg ++ optionLabels default ++ paramLabels rest
  | .posOnlyMarker :: rest => paramLabels rest
  | .varArgs none :: rest => paramLabels rest
  | .varArgs (some arg) :: rest => argumentLabels arg ++ paramLabels rest
  | .kwArgs arg :: rest => argumentLabels arg ++ paramLabels rest

end

mutual

def patternLabels : Pattern → List Label
  | .value e => exprLabels e
  | .singleton _ => []
  | .sequence patterns => patternsLabels patterns
  | .mapping items rest =>
    mappingKeyLabels items ++ mappingLabels items ++ rest.toList.map .name
  | .cls head patterns keywords =>
    exprLabels head ++ patternsLabels patterns ++ keywordPatternLabels keywords
  | .star name => name.toList.map .name
  | .wildcard => []
  | .capture name => [.name name]
  | .bind pattern name => patternLabels pattern ++ [.name name]
  | .or patterns => patternsLabels patterns

def patternsLabels : List Pattern → List Label
  | [] => []
  | p :: ps => patternLabels p ++ patternsLabels ps

def mappingKeyLabels : List MappingItem → List Label
  | [] => []
  | ⟨key, _⟩ :: rest => exprLabels key ++ mappingKeyLabels rest

def mappingLabels : List MappingItem → List Label
  | [] => []
  | ⟨_, pattern⟩ :: rest => patternLabels pattern ++ mappingLabels rest

def keywordPatternLabels : List KeywordPattern → List Label
  | [] => []
  | ⟨_, pattern⟩ :: rest => patternLabels pattern ++ keywordPatternLabels rest

end

def withItemLabels (item : WithItem) : List Label :=
  exprLabels item.context ++ optionLabels item.vars

mutual

def stmtLabels : Stmt → List Label
  | .functionDef name params body decorators returns _ =>
    .name name :: paramLabels params ++ blockLabels body ++ listLabels decorators ++
      optionLabels returns
  | .classDef name bases keywords body decorators =>
    .name name :: listLabels bases ++ keywordLabels keywords ++ blockLabels body ++
      listLabels decorators
  | .ret value => optionLabels value
  | .delete targets => listLabels targets
  | .assign targets value => listLabels targets ++ exprLabels value
  | .augAssign target _ value => exprLabels target ++ exprLabels value
  | .annAssign target annotation value =>
    exprLabels target ++ exprLabels annotation ++ optionLabels value
  | .forLoop target iter body orelse _ =>
    exprLabels target ++ exprLabels iter ++ blockLabels body ++ blockLabels orelse
  | .whileLoop test body orelse => exprLabels test ++ blockLabels body ++ blockLabels orelse
  | .branch test body orelse => exprLabels test ++ blockLabels body ++ blockLabels orelse
  | .withBlock items body _ => items.flatMap withItemLabels ++ blockLabels body
  | .raise exc cause => optionLabels exc ++ optionLabels cause
  | .tryBlock body handlers orelse finalbody =>
    blockLabels body ++ handlerLabels handlers ++ blockLabels orelse ++ blockLabels finalbody
  | .assert test msg => exprLabels test ++ optionLabels msg
  | .imports _ => []
  | .importFrom _ _ _ => []
  | .global names => names.map .name
  | .nonlocal names => names.map .name
  | .matchBlock subject cases => exprLabels subject ++ caseLabels cases
  | .expr value => exprLabels value
  | .pass => []
  | .breakLoop => []
  | .continueLoop => []

def blockLabels : List Stmt → List Label
  | [] => []
  | s :: rest => stmtLabels s ++ blockLabels rest

def handlerLabels : List Handler → List Label
  | [] => []
  | ⟨type, name, body⟩ :: rest =>
    optionLabels type ++ name.toList.map .name ++ blockLabels body ++ handlerLabels rest

def caseLabels : List MatchCase → List Label
  | [] => []
  | ⟨pattern, guard, body⟩ :: rest =>
    patternLabels pattern ++ optionLabels guard ++ blockLabels body ++ caseLabels rest

end

end Arbiter.Syntax
