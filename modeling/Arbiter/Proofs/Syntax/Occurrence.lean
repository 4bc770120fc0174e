import Arbiter.Syntax.Occurrence
import Arbiter.Syntax.Relabel

/-! The occurrences of a relabelled tree are the relabelled occurrences, in the same order and with
the same contexts. -/

namespace Arbiter.Syntax

def Relabeling.onOccurrence (r : Relabeling) (o : Occurrence) : Occurrence := ⟨r.name o.name, o.ctx⟩

theorem Relabeling.storeOccurrences (r : Relabeling) (name : Option String) :
    (name.map r.name).toList.map (⟨·, .store⟩) =
      (name.toList.map (⟨·, .store⟩)).map r.onOccurrence := by
  cases name <;> rfl

variable (r : Relabeling)

mutual

theorem exprOccurrences_relabel :
    (e : Expr) → (relabelExpr r e).occurrences = e.occurrences.map r.onOccurrence
  | .name _ _ | .constant _ => rfl
  | .attribute e _ _ | .starred e _ | .unary _ e | .await e | .yieldFrom e => by
    simp only [relabelExpr, Expr.occurrences, exprOccurrences_relabel e]
  | .subscript e f _ | .binary e _ f | .named e f => by
    simp only [relabelExpr, Expr.occurrences, exprOccurrences_relabel e,
      exprOccurrences_relabel f, List.map_append]
  | .ifElse e f f' => by
    simp only [relabelExpr, Expr.occurrences, exprOccurrences_relabel e,
      exprOccurrences_relabel f, exprOccurrences_relabel f', List.map_append]
  | .slice lower upper step => by
    simp only [relabelExpr, Expr.occurrences, optionOccurrences_relabel lower,
      optionOccurrences_relabel upper, optionOccurrences_relabel step, List.map_append]
  | .yield value => by
    simp only [relabelExpr, Expr.occurrences, optionOccurrences_relabel value]
  | .tuple es _ | .list es _ | .set es | .bool _ es => by
    simp only [relabelExpr, Expr.occurrences, listOccurrences_relabel es]
  | .joinedStr parts => by
    simp only [relabelExpr, Expr.occurrences, partOccurrences_relabel parts]
  | .dict items => by simp only [relabelExpr, Expr.occurrences, dictOccurrences_relabel items]
  | .compare left rest => by
    simp only [relabelExpr, Expr.occurrences, exprOccurrences_relabel left,
      comparandOccurrences_relabel rest, List.map_append]
  | .call func args keywords => by
    simp only [relabelExpr, Expr.occurrences, exprOccurrences_relabel func,
      listOccurrences_relabel args, keywordOccurrences_relabel keywords, List.map_append]
  | .lambda params body => by
    simp only [relabelExpr, Expr.occurrences, paramOccurrences_relabel params,
      exprOccurrences_relabel body, List.map_append]
  | .listComp e generators | .setComp e generators | .generatorExp e generators => by
    simp only [relabelExpr, Expr.occurrences, exprOccurrences_relabel e,
      generatorOccurrences_relabel generators, List.map_append]
  | .dictComp key value generators => by
    simp only [relabelExpr, Expr.occurrences, exprOccurrences_relabel key,
      exprOccurrences_relabel value, generatorOccurrences_relabel generators, List.map_append]

theorem listOccurrences_relabel :
    (es : List Expr) → listOccurrences (relabelExprs r es) =
      (listOccurrences es).map r.onOccurrence
  | [] => rfl
  | e :: es => by
    simp only [relabelExprs, listOccurrences, exprOccurrences_relabel e,
      listOccurrences_relabel es, List.map_append]

theorem optionOccurrences_relabel :
    (e : Option Expr) → optionOccurrences (relabelOption r e) =
      (optionOccurrences e).map r.onOccurrence
  | none => rfl
  | some e => exprOccurrences_relabel e

theorem partOccurrences_relabel :
    (parts : List FStringPart) → partOccurrences (relabelParts r parts) =
      (partOccurrences parts).map r.onOccurrence
  | [] => rfl
  | .literal _ :: rest => partOccurrences_relabel rest
  | .formatted value _ _ :: rest => by
    simp only [relabelParts, partOccurrences, exprOccurrences_relabel value,
      partOccurrences_relabel rest, List.map_append]

theorem dictOccurrences_relabel :
    (items : List DictItem) → dictOccurrences (relabelDict r items) =
      (dictOccurrences items).map r.onOccurrence
  | [] => rfl
  | .entry key value :: rest => by
    simp only [relabelDict, dictOccurrences, exprOccurrences_relabel key,
      exprOccurrences_relabel value, dictOccurrences_relabel rest, List.map_append]
  | .spread value :: rest => by
    simp only [relabelDict, dictOccurrences, exprOccurrences_relabel value,
      dictOccurrences_relabel rest, List.map_append]

theorem comparandOccurrences_relabel :
    (rest : List Comparand) → comparandOccurrences (relabelComparands r rest) =
      (comparandOccurrences rest).map r.onOccurrence
  | [] => rfl
  | ⟨_, value⟩ :: rest => by
    simp only [relabelComparands, comparandOccurrences, exprOccurrences_relabel value,
      comparandOccurrences_relabel rest, List.map_append]

theorem keywordOccurrences_relabel :
    (keywords : List Keyword) → keywordOccurrences (relabelKeywords r keywords) =
      (keywordOccurrences keywords).map r.onOccurrence
  | [] => rfl
  | ⟨_, value⟩ :: rest => by
    simp only [relabelKeywords, keywordOccurrences, exprOccurrences_relabel value,
      keywordOccurrences_relabel rest, List.map_append]

theorem generatorOccurrences_relabel :
    (generators : List Generator) → generatorOccurrences (relabelGenerators r generators) =
      (generatorOccurrences generators).map r.onOccurrence
  | [] => rfl
  | ⟨target, iter, ifs, _⟩ :: rest => by
    simp only [relabelGenerators, generatorOccurrences, exprOccurrences_relabel target,
      exprOccurrences_relabel iter, listOccurrences_relabel ifs,
      generatorOccurrences_relabel rest, List.map_append]

theorem argumentOccurrences_relabel :
    (arg : Argument) → argumentOccurrences (relabelArgument r arg) =
      (argumentOccurrences arg).map r.onOccurrence
  | ⟨_, annotation⟩ => optionOccurrences_relabel annotation

theorem paramOccurrences_relabel :
    (params : List Param) → paramOccurrences (relabelParams r params) =
      (paramOccurrences params).map r.onOccurrence
  | [] => rfl
  | .plain arg default :: rest => by
    simp only [relabelParams, paramOccurrences, argumentOccurrences_relabel arg,
      optionOccurrences_relabel default, paramOccurrences_relabel rest, List.map_append]
  | .posOnlyMarker :: rest | .varArgs none :: rest => paramOccurrences_relabel rest
  | .varArgs (some arg) :: rest | .kwArgs arg :: rest => by
    simp only [relabelParams, paramOccurrences, argumentOccurrences_relabel arg,
      paramOccurrences_relabel rest, List.map_append]

end

mutual

theorem patternOccurrences_relabel :
    (p : Pattern) → (relabelPattern r p).occurrences = p.occurrences.map r.onOccurrence
  | .singleton _ | .wildcard | .capture _ => rfl
  | .value e => exprOccurrences_relabel r e
  | .star name => r.storeOccurrences name
  | .sequence patterns | .or patterns => patternsOccurrences_relabel patterns
  | .mapping items rest => by
    simp only [relabelPattern, Pattern.occurrences, mappingKeyOccurrences_relabel items,
      mappingOccurrences_relabel items, List.map_append, r.storeOccurrences rest]
  | .cls head patterns keywords => by
    simp only [relabelPattern, Pattern.occurrences, exprOccurrences_relabel,
      patternsOccurrences_relabel patterns, keywordPatternOccurrences_relabel keywords,
      List.map_append]
  | .bind pattern _ => by
    simp only [relabelPattern, Pattern.occurrences, patternOccurrences_relabel pattern,
      List.map_append]
    rfl

theorem patternsOccurrences_relabel :
    (ps : List Pattern) → patternOccurrences (relabelPatterns r ps) =
      (patternOccurrences ps).map r.onOccurrence
  | [] => rfl
  | p :: ps => by
    simp only [relabelPatterns, patternOccurrences, patternOccurrences_relabel p,
      patternsOccurrences_relabel ps, List.map_append]

theorem mappingKeyOccurrences_relabel :
    (items : List MappingItem) → mappingKeyOccurrences (relabelMapping r items) =
      (mappingKeyOccurrences items).map r.onOccurrence
  | [] => rfl
  | ⟨_, _⟩ :: rest => by
    simp only [relabelMapping, mappingKeyOccurrences, exprOccurrences_relabel,
      mappingKeyOccurrences_relabel rest, List.map_append]

theorem mappingOccurrences_relabel :
    (items : List MappingItem) → mappingOccurrences (relabelMapping r items) =
      (mappingOccurrences items).map r.onOccurrence
  | [] => rfl
  | ⟨_, pattern⟩ :: rest => by
    simp only [relabelMapping, mappingOccurrences, patternOccurrences_relabel pattern,
      mappingOccurrences_relabel rest, List.map_append]

theorem keywordPatternOccurrences_relabel :
    (keywords : List KeywordPattern) →
      keywordPatternOccurrences (relabelKeywordPatterns r keywords) =
        (keywordPatternOccurrences keywords).map r.onOccurrence
  | [] => rfl
  | ⟨_, pattern⟩ :: rest => by
    simp only [relabelKeywordPatterns, keywordPatternOccurrences,
      patternOccurrences_relabel pattern, keywordPatternOccurrences_relabel rest, List.map_append]

end

theorem withItemOccurrences_relabel (item : WithItem) :
    (relabelWithItem r item).occurrences = item.occurrences.map r.onOccurrence := by
  simp only [relabelWithItem, WithItem.occurrences, exprOccurrences_relabel,
    optionOccurrences_relabel, List.map_append]

mutual

theorem stmtOccurrences_relabel :
    (s : Stmt) → (relabelStmt r s).occurrences = s.occurrences.map r.onOccurrence
  | .imports _ | .importFrom _ _ _ | .pass | .breakLoop | .continueLoop | .global _
  | .nonlocal _ => rfl
  | .ret _ | .delete _ | .assign _ _ | .augAssign _ _ _ | .annAssign _ _ _ | .raise _ _
  | .assert _ _ | .expr _ => by
    simp only [relabelStmt, Stmt.occurrences, exprOccurrences_relabel, listOccurrences_relabel,
      optionOccurrences_relabel, List.map_append]
  | .functionDef _ _ body _ _ _ => by
    simp only [relabelStmt, Stmt.occurrences, paramOccurrences_relabel,
      blockOccurrences_relabel body, listOccurrences_relabel, optionOccurrences_relabel,
      List.map_append]
  | .classDef _ _ _ body _ => by
    simp only [relabelStmt, Stmt.occurrences, listOccurrences_relabel, keywordOccurrences_relabel,
      blockOccurrences_relabel body, List.map_append]
  | .forLoop _ _ body orelse _ | .whileLoop _ body orelse | .branch _ body orelse => by
    simp only [relabelStmt, Stmt.occurrences, exprOccurrences_relabel,
      blockOccurrences_relabel body, blockOccurrences_relabel orelse, List.map_append]
  | .withBlock items body _ => by
    simp only [relabelStmt, Stmt.occurrences, blockOccurrences_relabel body, List.map_append,
      List.flatMap_map, List.map_flatMap, withItemOccurrences_relabel]
  | .tryBlock body handlers orelse finalbody => by
    simp only [relabelStmt, Stmt.occurrences, blockOccurrences_relabel body,
      handlerOccurrences_relabel handlers, blockOccurrences_relabel orelse,
      blockOccurrences_relabel finalbody, List.map_append]
  | .matchBlock _ cases => by
    simp only [relabelStmt, Stmt.occurrences, exprOccurrences_relabel,
      caseOccurrences_relabel cases, List.map_append]

theorem blockOccurrences_relabel :
    (body : List Stmt) → blockOccurrences (relabelBlock r body) =
      (blockOccurrences body).map r.onOccurrence
  | [] => rfl
  | s :: rest => by
    simp only [relabelBlock, blockOccurrences, stmtOccurrences_relabel s,
      blockOccurrences_relabel rest, List.map_append]

theorem handlerOccurrences_relabel :
    (handlers : List Handler) → handlerOccurrences (relabelHandlers r handlers) =
      (handlerOccurrences handlers).map r.onOccurrence
  | [] => rfl
  | ⟨_, _, body⟩ :: rest => by
    simp only [relabelHandlers, handlerOccurrences, optionOccurrences_relabel,
      blockOccurrences_relabel body, handlerOccurrences_relabel rest, List.map_append]

theorem caseOccurrences_relabel :
    (cases : List MatchCase) → caseOccurrences (relabelCases r cases) =
      (caseOccurrences cases).map r.onOccurrence
  | [] => rfl
  | ⟨_, _, body⟩ :: rest => by
    simp only [relabelCases, caseOccurrences, patternOccurrences_relabel,
      optionOccurrences_relabel, blockOccurrences_relabel body, caseOccurrences_relabel rest,
      List.map_append]

end

end Arbiter.Syntax
