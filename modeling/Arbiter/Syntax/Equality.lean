import Arbiter.Syntax.Stmt

/-! Whether two trees are the same, contexts and the spelling of literals included. -/

namespace Arbiter.Syntax

mutual

def Expr.same : Expr → Expr → Bool
  | .name id ctx => fun
    | .name id' ctx' => id == id' && ctx == ctx'
    | _ => false
  | .constant c => fun
    | .constant c' => c == c'
    | _ => false
  | .joinedStr parts => fun
    | .joinedStr parts' => sameParts parts parts'
    | _ => false
  | .attribute value attr ctx => fun
    | .attribute value' attr' ctx' => value.same value' && attr == attr' && ctx == ctx'
    | _ => false
  | .subscript value index ctx => fun
    | .subscript value' index' ctx' => value.same value' && index.same index' && ctx == ctx'
    | _ => false
  | .slice lower upper step => fun
    | .slice lower' upper' step' =>
      sameOption lower lower' && sameOption upper upper' && sameOption step step'
    | _ => false
  | .starred value ctx => fun
    | .starred value' ctx' => value.same value' && ctx == ctx'
    | _ => false
  | .tuple elts ctx => fun
    | .tuple elts' ctx' => sameList elts elts' && ctx == ctx'
    | _ => false
  | .list elts ctx => fun
    | .list elts' ctx' => sameList elts elts' && ctx == ctx'
    | _ => false
  | .set elts => fun
    | .set elts' => sameList elts elts'
    | _ => false
  | .dict items => fun
    | .dict items' => sameDict items items'
    | _ => false
  | .binary left op right => fun
    | .binary left' op' right' => left.same left' && op == op' && right.same right'
    | _ => false
  | .unary op operand => fun
    | .unary op' operand' => op == op' && operand.same operand'
    | _ => false
  | .bool op values => fun
    | .bool op' values' => op == op' && sameList values values'
    | _ => false
  | .compare left rest => fun
    | .compare left' rest' => left.same left' && sameComparands rest rest'
    | _ => false
  | .call func args keywords => fun
    | .call func' args' keywords' =>
      func.same func' && sameList args args' && sameKeywords keywords keywords'
    | _ => false
  | .ifElse test body orelse => fun
    | .ifElse test' body' orelse' => test.same test' && body.same body' && orelse.same orelse'
    | _ => false
  | .lambda params body => fun
    | .lambda params' body' => sameParams params params' && body.same body'
    | _ => false
  | .listComp elt generators => fun
    | .listComp elt' generators' => elt.same elt' && sameGenerators generators generators'
    | _ => false
  | .setComp elt generators => fun
    | .setComp elt' generators' => elt.same elt' && sameGenerators generators generators'
    | _ => false
  | .generatorExp elt generators => fun
    | .generatorExp elt' generators' => elt.same elt' && sameGenerators generators generators'
    | _ => false
  | .dictComp key value generators => fun
    | .dictComp key' value' generators' =>
      key.same key' && value.same value' && sameGenerators generators generators'
    | _ => false
  | .await value => fun
    | .await value' => value.same value'
    | _ => false
  | .yield value => fun
    | .yield value' => sameOption value value'
    | _ => false
  | .yieldFrom value => fun
    | .yieldFrom value' => value.same value'
    | _ => false
  | .named target value => fun
    | .named target' value' => target.same target' && value.same value'
    | _ => false

def sameList : List Expr → List Expr → Bool
  | [], [] => true
  | e :: es, e' :: es' => e.same e' && sameList es es'
  | _, _ => false

def sameOption : Option Expr → Option Expr → Bool
  | none, none => true
  | some e, some e' => e.same e'
  | _, _ => false

def sameParts : List FStringPart → List FStringPart → Bool
  | [], [] => true
  | .literal s :: rest, .literal s' :: rest' => s == s' && sameParts rest rest'
  | .formatted value conversion spec :: rest, .formatted value' conversion' spec' :: rest' =>
    value.same value' && conversion == conversion' && spec == spec' && sameParts rest rest'
  | _, _ => false

def sameDict : List DictItem → List DictItem → Bool
  | [], [] => true
  | .entry key value :: rest, .entry key' value' :: rest' =>
    key.same key' && value.same value' && sameDict rest rest'
  | .spread value :: rest, .spread value' :: rest' => value.same value' && sameDict rest rest'
  | _, _ => false

def sameComparands : List Comparand → List Comparand → Bool
  | [], [] => true
  | ⟨op, value⟩ :: rest, ⟨op', value'⟩ :: rest' =>
    op == op' && value.same value' && sameComparands rest rest'
  | _, _ => false

def sameKeywords : List Keyword → List Keyword → Bool
  | [], [] => true
  | ⟨arg, value⟩ :: rest, ⟨arg', value'⟩ :: rest' =>
    arg == arg' && value.same value' && sameKeywords rest rest'
  | _, _ => false

def sameGenerators : List Generator → List Generator → Bool
  | [], [] => true
  | ⟨target, iter, ifs, isAsync⟩ :: rest, ⟨target', iter', ifs', isAsync'⟩ :: rest' =>
    target.same target' && iter.same iter' && sameList ifs ifs' && isAsync == isAsync' &&
      sameGenerators rest rest'
  | _, _ => false

def sameArgument : Argument → Argument → Bool
  | ⟨name, annotation⟩, ⟨name', annotation'⟩ => name == name' && sameOption annotation annotation'

def sameParams : List Param → List Param → Bool
  | [], [] => true
  | .plain arg default :: rest, .plain arg' default' :: rest' =>
    sameArgument arg arg' && sameOption default default' && sameParams rest rest'
  | .posOnlyMarker :: rest, .posOnlyMarker :: rest' => sameParams rest rest'
  | .varArgs none :: rest, .varArgs none :: rest' => sameParams rest rest'
  | .varArgs (some arg) :: rest, .varArgs (some arg') :: rest' =>
    sameArgument arg arg' && sameParams rest rest'
  | .kwArgs arg :: rest, .kwArgs arg' :: rest' => sameArgument arg arg' && sameParams rest rest'
  | _, _ => false

end

mutual

def Pattern.same : Pattern → Pattern → Bool
  | .value e => fun
    | .value e' => e.same e'
    | _ => false
  | .singleton c => fun
    | .singleton c' => c == c'
    | _ => false
  | .sequence patterns => fun
    | .sequence patterns' => samePatterns patterns patterns'
    | _ => false
  | .mapping items rest => fun
    | .mapping items' rest' => sameMapping items items' && rest == rest'
    | _ => false
  | .cls head patterns keywords => fun
    | .cls head' patterns' keywords' =>
      head.same head' && samePatterns patterns patterns' &&
        sameKeywordPatterns keywords keywords'
    | _ => false
  | .star name => fun
    | .star name' => name == name'
    | _ => false
  | .wildcard => fun
    | .wildcard => true
    | _ => false
  | .capture name => fun
    | .capture name' => name == name'
    | _ => false
  | .bind pattern name => fun
    | .bind pattern' name' => pattern.same pattern' && name == name'
    | _ => false
  | .or patterns => fun
    | .or patterns' => samePatterns patterns patterns'
    | _ => false

def samePatterns : List Pattern → List Pattern → Bool
  | [], [] => true
  | p :: ps, p' :: ps' => p.same p' && samePatterns ps ps'
  | _, _ => false

def sameMapping : List MappingItem → List MappingItem → Bool
  | [], [] => true
  | ⟨key, pattern⟩ :: rest, ⟨key', pattern'⟩ :: rest' =>
    key.same key' && pattern.same pattern' && sameMapping rest rest'
  | _, _ => false

def sameKeywordPatterns : List KeywordPattern → List KeywordPattern → Bool
  | [], [] => true
  | ⟨attr, pattern⟩ :: rest, ⟨attr', pattern'⟩ :: rest' =>
    attr == attr' && pattern.same pattern' && sameKeywordPatterns rest rest'
  | _, _ => false

end

def sameWithItems : List WithItem → List WithItem → Bool
  | [], [] => true
  | ⟨context, vars⟩ :: rest, ⟨context', vars'⟩ :: rest' =>
    context.same context' && sameOption vars vars' && sameWithItems rest rest'
  | _, _ => false

mutual

def Stmt.same : Stmt → Stmt → Bool
  | .functionDef name params body decorators returns isAsync => fun
    | .functionDef name' params' body' decorators' returns' isAsync' =>
      name == name' && sameParams params params' && sameBlock body body' &&
        sameList decorators decorators' && sameOption returns returns' && isAsync == isAsync'
    | _ => false
  | .classDef name bases keywords body decorators => fun
    | .classDef name' bases' keywords' body' decorators' =>
      name == name' && sameList bases bases' && sameKeywords keywords keywords' &&
        sameBlock body body' && sameList decorators decorators'
    | _ => false
  | .ret value => fun
    | .ret value' => sameOption value value'
    | _ => false
  | .delete targets => fun
    | .delete targets' => sameList targets targets'
    | _ => false
  | .assign targets value => fun
    | .assign targets' value' => sameList targets targets' && value.same value'
    | _ => false
  | .augAssign target op value => fun
    | .augAssign target' op' value' => target.same target' && op == op' && value.same value'
    | _ => false
  | .annAssign target annotation value => fun
    | .annAssign target' annotation' value' =>
      target.same target' && annotation.same annotation' && sameOption value value'
    | _ => false
  | .forLoop target iter body orelse isAsync => fun
    | .forLoop target' iter' body' orelse' isAsync' =>
      target.same target' && iter.same iter' && sameBlock body body' &&
        sameBlock orelse orelse' && isAsync == isAsync'
    | _ => false
  | .whileLoop test body orelse => fun
    | .whileLoop test' body' orelse' =>
      test.same test' && sameBlock body body' && sameBlock orelse orelse'
    | _ => false
  | .branch test body orelse => fun
    | .branch test' body' orelse' =>
      test.same test' && sameBlock body body' && sameBlock orelse orelse'
    | _ => false
  | .withBlock items body isAsync => fun
    | .withBlock items' body' isAsync' =>
      sameWithItems items items' && sameBlock body body' && isAsync == isAsync'
    | _ => false
  | .raise exc cause => fun
    | .raise exc' cause' => sameOption exc exc' && sameOption cause cause'
    | _ => false
  | .tryBlock body handlers orelse finalbody => fun
    | .tryBlock body' handlers' orelse' finalbody' =>
      sameBlock body body' && sameHandlers handlers handlers' && sameBlock orelse orelse' &&
        sameBlock finalbody finalbody'
    | _ => false
  | .assert test msg => fun
    | .assert test' msg' => test.same test' && sameOption msg msg'
    | _ => false
  | .imports names => fun
    | .imports names' => names == names'
    | _ => false
  | .importFrom module names level => fun
    | .importFrom module' names' level' => module == module' && names == names' && level == level'
    | _ => false
  | .global names => fun
    | .global names' => names == names'
    | _ => false
  | .nonlocal names => fun
    | .nonlocal names' => names == names'
    | _ => false
  | .matchBlock subject cases => fun
    | .matchBlock subject' cases' => subject.same subject' && sameCases cases cases'
    | _ => false
  | .expr value => fun
    | .expr value' => value.same value'
    | _ => false
  | .pass => fun
    | .pass => true
    | _ => false
  | .breakLoop => fun
    | .breakLoop => true
    | _ => false
  | .continueLoop => fun
    | .continueLoop => true
    | _ => false

def sameBlock : List Stmt → List Stmt → Bool
  | [], [] => true
  | s :: rest, s' :: rest' => s.same s' && sameBlock rest rest'
  | _, _ => false

def sameHandlers : List Handler → List Handler → Bool
  | [], [] => true
  | ⟨type, name, body⟩ :: rest, ⟨type', name', body'⟩ :: rest' =>
    sameOption type type' && name == name' && sameBlock body body' && sameHandlers rest rest'
  | _, _ => false

def sameCases : List MatchCase → List MatchCase → Bool
  | [], [] => true
  | ⟨pattern, guard, body⟩ :: rest, ⟨pattern', guard', body'⟩ :: rest' =>
    pattern.same pattern' && sameOption guard guard' && sameBlock body body' &&
      sameCases rest rest'
  | _, _ => false

end

end Arbiter.Syntax
