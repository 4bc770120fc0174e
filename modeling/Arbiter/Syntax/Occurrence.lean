import Arbiter.Syntax.Stmt

/-! The names that occur in expressions, patterns and statements, each with its context, roughly in
the order of evaluation: a value comes before the target that it is bound to. -/

namespace Arbiter.Syntax

structure Occurrence where
  name : String
  ctx : Context
deriving DecidableEq

mutual

def Expr.occurrences : Expr → List Occurrence
  | .name id ctx => [⟨id, ctx⟩]
  | .constant _ => []
  | .joinedStr parts => partOccurrences parts
  | .attribute value _ _ => value.occurrences
  | .subscript value index _ => value.occurrences ++ index.occurrences
  | .slice lower upper step =>
    optionOccurrences lower ++ optionOccurrences upper ++ optionOccurrences step
  | .starred value _ => value.occurrences
  | .tuple elts _ => listOccurrences elts
  | .list elts _ => listOccurrences elts
  | .set elts => listOccurrences elts
  | .dict items => dictOccurrences items
  | .binary left _ right => left.occurrences ++ right.occurrences
  | .unary _ operand => operand.occurrences
  | .bool _ values => listOccurrences values
  | .compare left rest => left.occurrences ++ comparandOccurrences rest
  | .call func args keywords =>
    func.occurrences ++ listOccurrences args ++ keywordOccurrences keywords
  | .ifElse test body orelse => test.occurrences ++ body.occurrences ++ orelse.occurrences
  | .lambda params body => paramOccurrences params ++ body.occurrences
  | .listComp elt generators => generatorOccurrences generators ++ elt.occurrences
  | .setComp elt generators => generatorOccurrences generators ++ elt.occurrences
  | .generatorExp elt generators => generatorOccurrences generators ++ elt.occurrences
  | .dictComp key value generators =>
    generatorOccurrences generators ++ key.occurrences ++ value.occurrences
  | .await value => value.occurrences
  | .yield value => optionOccurrences value
  | .yieldFrom value => value.occurrences
  | .named target value => value.occurrences ++ target.occurrences

def listOccurrences : List Expr → List Occurrence
  | [] => []
  | e :: es => e.occurrences ++ listOccurrences es

def optionOccurrences : Option Expr → List Occurrence
  | none => []
  | some e => e.occurrences

def partOccurrences : List FStringPart → List Occurrence
  | [] => []
  | .literal _ :: rest => partOccurrences rest
  | .formatted value _ _ :: rest => value.occurrences ++ partOccurrences rest

def dictOccurrences : List DictItem → List Occurrence
  | [] => []
  | .entry key value :: rest => key.occurrences ++ value.occurrences ++ dictOccurrences rest
  | .spread value :: rest => value.occurrences ++ dictOccurrences rest

def comparandOccurrences : List Comparand → List Occurrence
  | [] => []
  | ⟨_, value⟩ :: rest => value.occurrences ++ comparandOccurrences rest

def keywordOccurrences : List Keyword → List Occurrence
  | [] => []
  | ⟨_, value⟩ :: rest => value.occurrences ++ keywordOccurrences rest

def generatorOccurrences : List Generator → List Occurrence
  | [] => []
  | ⟨target, iter, ifs, _⟩ :: rest =>
    iter.occurrences ++ target.occurrences ++ listOccurrences ifs ++ generatorOccurrences rest

/-- The parameters themselves are no occurrences; their annotations and defaults hold some. -/
def paramOccurrences : List Param → List Occurrence
  | [] => []
  | .plain arg default :: rest =>
    argumentOccurrences arg ++ optionOccurrences default ++ paramOccurrences rest
  | .posOnlyMarker :: rest => paramOccurrences rest
  | .varArgs none :: rest => paramOccurrences rest
  | .varArgs (some arg) :: rest => argumentOccurrences arg ++ paramOccurrences rest
  | .kwArgs arg :: rest => argumentOccurrences arg ++ paramOccurrences rest

def argumentOccurrences : Argument → List Occurrence
  | ⟨_, annotation⟩ => optionOccurrences annotation

end

mutual

/-- A name that a pattern binds is stored. -/
def Pattern.occurrences : Pattern → List Occurrence
  | .value e => e.occurrences
  | .singleton _ => []
  | .sequence patterns => patternOccurrences patterns
  | .mapping items rest =>
    mappingKeyOccurrences items ++ mappingOccurrences items ++
      rest.toList.map (⟨·, .store⟩)
  | .cls head patterns keywords =>
    head.occurrences ++ patternOccurrences patterns ++ keywordPatternOccurrences keywords
  | .star name => name.toList.map (⟨·, .store⟩)
  | .wildcard => []
  | .capture name => [⟨name, .store⟩]
  | .bind pattern name => pattern.occurrences ++ [⟨name, .store⟩]
  | .or patterns => patternOccurrences patterns

def patternOccurrences : List Pattern → List Occurrence
  | [] => []
  | p :: ps => p.occurrences ++ patternOccurrences ps

def mappingKeyOccurrences : List MappingItem → List Occurrence
  | [] => []
  | ⟨key, _⟩ :: rest => key.occurrences ++ mappingKeyOccurrences rest

def mappingOccurrences : List MappingItem → List Occurrence
  | [] => []
  | ⟨_, pattern⟩ :: rest => pattern.occurrences ++ mappingOccurrences rest

def keywordPatternOccurrences : List KeywordPattern → List Occurrence
  | [] => []
  | ⟨_, pattern⟩ :: rest => pattern.occurrences ++ keywordPatternOccurrences rest

end

def WithItem.occurrences (item : WithItem) : List Occurrence :=
  item.context.occurrences ++ optionOccurrences item.vars

mutual

/-- The occurrences in a statement, its blocks included. -/
def Stmt.occurrences : Stmt → List Occurrence
  | .functionDef _ params body decorators returns _ =>
    listOccurrences decorators ++ paramOccurrences params ++ optionOccurrences returns ++
      blockOccurrences body
  | .classDef _ bases keywords body decorators =>
    listOccurrences decorators ++ listOccurrences bases ++ keywordOccurrences keywords ++
      blockOccurrences body
  | .ret value => optionOccurrences value
  | .delete targets => listOccurrences targets
  | .assign targets value => value.occurrences ++ listOccurrences targets
  | .augAssign target _ value => value.occurrences ++ target.occurrences
  | .annAssign target annotation value =>
    optionOccurrences value ++ annotation.occurrences ++ target.occurrences
  | .forLoop target iter body orelse _ =>
    iter.occurrences ++ target.occurrences ++ blockOccurrences body ++ blockOccurrences orelse
  | .whileLoop test body orelse =>
    test.occurrences ++ blockOccurrences body ++ blockOccurrences orelse
  | .branch test body orelse =>
    test.occurrences ++ blockOccurrences body ++ blockOccurrences orelse
  | .withBlock items body _ => items.flatMap WithItem.occurrences ++ blockOccurrences body
  | .raise exc cause => optionOccurrences exc ++ optionOccurrences cause
  | .tryBlock body handlers orelse finalbody =>
    blockOccurrences body ++ handlerOccurrences handlers ++ blockOccurrences orelse ++
      blockOccurrences finalbody
  | .assert test msg => test.occurrences ++ optionOccurrences msg
  | .matchBlock subject cases => subject.occurrences ++ caseOccurrences cases
  | .expr value => value.occurrences
  | .imports _ => []
  | .importFrom _ _ _ => []
  | .global _ => []
  | .nonlocal _ => []
  | .pass => []
  | .breakLoop => []
  | .continueLoop => []

def blockOccurrences : List Stmt → List Occurrence
  | [] => []
  | s :: rest => s.occurrences ++ blockOccurrences rest

def handlerOccurrences : List Handler → List Occurrence
  | [] => []
  | ⟨type, _, body⟩ :: rest =>
    optionOccurrences type ++ blockOccurrences body ++ handlerOccurrences rest

def caseOccurrences : List MatchCase → List Occurrence
  | [] => []
  | ⟨pattern, guard, body⟩ :: rest =>
    pattern.occurrences ++ optionOccurrences guard ++ blockOccurrences body ++ caseOccurrences rest

end

end Arbiter.Syntax
