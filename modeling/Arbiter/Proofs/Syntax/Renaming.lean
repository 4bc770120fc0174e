import Arbiter.Syntax.Label
import Arbiter.Syntax.Relabel
import Mathlib.Logic.Function.Basic

/-! Consistent renamings: other names and literals, where different ones stay different. The labels
of a renamed tree are the renamed labels, in the same order. -/

namespace Arbiter.Syntax

/-- A choice of other names and other texts for literals. -/
structure Renaming where
  name : String → String
  literal : LiteralKind → String → String
  name_injective : Function.Injective name
  /-- Literals are told apart by kind and text, and their kind stays. -/
  literal_injective : ∀ kind, Function.Injective (literal kind)

namespace Renaming

/-- Everything may stay. -/
instance : Inhabited Renaming :=
  ⟨id, fun _ => id, Function.injective_id, fun _ => Function.injective_id⟩

def onLiteral (r : Renaming) (l : Literal) : Literal := ⟨l.kind, r.literal l.kind l.text⟩

def onLabel (r : Renaming) : Label → Label
  | .name id => .name (r.name id)
  | .literal l => .literal (r.onLiteral l)

/-- Constants that are not numbered stay. -/
def constant (r : Renaming) : Constant → Constant
  | .int text => .int (r.literal .int text)
  | .float text => .float (r.literal .float text)
  | .str text => .str (r.literal .str text)
  | c => c

/-- What the renaming does to a tree. The pieces of f-strings are strings. -/
def relabeling (r : Renaming) : Relabeling where
  name := r.name
  constant := r.constant
  piece := r.literal .str

theorem onLiteral_injective (r : Renaming) : Function.Injective r.onLiteral := by
  rintro ⟨kind, text⟩ ⟨kind', text'⟩ h
  obtain ⟨hkind, htext⟩ := Literal.mk.inj h
  obtain rfl : kind = kind' := hkind
  obtain rfl : text = text' := r.literal_injective kind htext
  rfl

/-- The labels of a renamed constant. -/
theorem constantLabels (r : Renaming) (c : Constant) :
    (literal? (r.constant c)).toList.map Label.literal =
      ((literal? c).toList.map .literal).map r.onLabel := by
  cases c <;> rfl

end Renaming

/-- The labels of a relabelled tree are those that `f` makes of the labels of the tree. -/
structure Relabeling.Carries (r : Relabeling) (f : Label → Label) : Prop where
  name : ∀ id, f (.name id) = .name (r.name id)
  constant : ∀ c, (literal? (r.constant c)).toList.map Label.literal =
    ((literal? c).toList.map .literal).map f
  piece : ∀ s, f (.literal ⟨.str, s⟩) = .literal ⟨.str, r.piece s⟩

theorem Renaming.carries (r : Renaming) : r.relabeling.Carries r.onLabel :=
  ⟨fun _ => rfl, r.constantLabels, fun _ => rfl⟩

namespace Relabeling.Carries

set_option linter.unusedSectionVars false

variable {r : Relabeling} {f : Label → Label} (h : r.Carries f)
include h

theorem nameLabels (names : List String) :
    (names.map r.name).map Label.name = (names.map .name).map f := by
  simp only [List.map_map, Function.comp_def, h.name]

theorem optionalNameLabels (name : Option String) :
    (name.map r.name).toList.map Label.name = (name.toList.map .name).map f := by
  cases name with
  | none => rfl
  | some id => exact (congrArg ([·]) (h.name id)).symm


mutual

theorem exprLabels_relabel :
    (e : Expr) → exprLabels (relabelExpr r e) = (exprLabels e).map f
  | .name id _ => congrArg ([·]) (h.name id).symm
  | .constant c => h.constant c
  | .attribute e _ _ | .starred e _ | .unary _ e | .await e | .yieldFrom e => by
    simp only [relabelExpr, exprLabels, exprLabels_relabel e]
  | .subscript e f _ | .binary e _ f | .named e f => by
    simp only [relabelExpr, exprLabels, exprLabels_relabel e, exprLabels_relabel f,
      List.map_append]
  | .ifElse e f f' => by
    simp only [relabelExpr, exprLabels, exprLabels_relabel e, exprLabels_relabel f,
      exprLabels_relabel f', List.map_append]
  | .slice lower upper step => by
    simp only [relabelExpr, exprLabels, optionLabels_relabel lower, optionLabels_relabel upper,
      optionLabels_relabel step, List.map_append]
  | .yield value => by simp only [relabelExpr, exprLabels, optionLabels_relabel value]
  | .tuple es _ | .list es _ | .set es | .bool _ es => by
    simp only [relabelExpr, exprLabels, listLabels_relabel es]
  | .joinedStr parts => by simp only [relabelExpr, exprLabels, partLabels_relabel parts]
  | .dict items => by simp only [relabelExpr, exprLabels, dictLabels_relabel items]
  | .compare left rest => by
    simp only [relabelExpr, exprLabels, exprLabels_relabel left, comparandLabels_relabel rest,
      List.map_append]
  | .call func args keywords => by
    simp only [relabelExpr, exprLabels, exprLabels_relabel func, listLabels_relabel args,
      keywordLabels_relabel keywords, List.map_append]
  | .lambda params body => by
    simp only [relabelExpr, exprLabels, paramLabels_relabel params, exprLabels_relabel body,
      List.map_append]
  | .listComp e generators | .setComp e generators | .generatorExp e generators => by
    simp only [relabelExpr, exprLabels, exprLabels_relabel e, generatorLabels_relabel generators,
      List.map_append]
  | .dictComp key value generators => by
    simp only [relabelExpr, exprLabels, exprLabels_relabel key, exprLabels_relabel value,
      generatorLabels_relabel generators, List.map_append]

theorem listLabels_relabel :
    (es : List Expr) → listLabels (relabelExprs r es) = (listLabels es).map f
  | [] => rfl
  | e :: es => by
    simp only [relabelExprs, listLabels, exprLabels_relabel e, listLabels_relabel es,
      List.map_append]

theorem optionLabels_relabel :
    (e : Option Expr) → optionLabels (relabelOption r e) =
      (optionLabels e).map f
  | none => rfl
  | some e => exprLabels_relabel e

theorem partLabels_relabel :
    (parts : List FStringPart) → partLabels (relabelParts r parts) =
      (partLabels parts).map f
  | [] => rfl
  | .literal _ :: rest => by
    simp only [relabelParts, partLabels, partLabels_relabel rest, List.map_cons, h.piece]
  | .formatted value _ _ :: rest => by
    simp only [relabelParts, partLabels, exprLabels_relabel value, partLabels_relabel rest,
      List.map_append]

theorem dictLabels_relabel :
    (items : List DictItem) → dictLabels (relabelDict r items) =
      (dictLabels items).map f
  | [] => rfl
  | .entry key value :: rest => by
    simp only [relabelDict, dictLabels, exprLabels_relabel key, exprLabels_relabel value,
      dictLabels_relabel rest, List.map_append]
  | .spread value :: rest => by
    simp only [relabelDict, dictLabels, exprLabels_relabel value, dictLabels_relabel rest,
      List.map_append]

theorem comparandLabels_relabel :
    (rest : List Comparand) → comparandLabels (relabelComparands r rest) =
      (comparandLabels rest).map f
  | [] => rfl
  | ⟨_, value⟩ :: rest => by
    simp only [relabelComparands, comparandLabels, exprLabels_relabel value,
      comparandLabels_relabel rest, List.map_append]

theorem keywordLabels_relabel :
    (keywords : List Keyword) → keywordLabels (relabelKeywords r keywords) =
      (keywordLabels keywords).map f
  | [] => rfl
  | ⟨_, value⟩ :: rest => by
    simp only [relabelKeywords, keywordLabels, exprLabels_relabel value,
      keywordLabels_relabel rest, List.map_append]

theorem generatorLabels_relabel :
    (generators : List Generator) → generatorLabels (relabelGenerators r generators) =
      (generatorLabels generators).map f
  | [] => rfl
  | ⟨target, iter, ifs, _⟩ :: rest => by
    simp only [relabelGenerators, generatorLabels, exprLabels_relabel target,
      exprLabels_relabel iter, listLabels_relabel ifs, generatorLabels_relabel rest,
      List.map_append]

theorem argumentLabels_relabel :
    (arg : Argument) → argumentLabels (relabelArgument r arg) =
      (argumentLabels arg).map f
  | ⟨_, annotation⟩ => by
    simp only [relabelArgument, argumentLabels, optionLabels_relabel annotation, List.map_cons, h.name]

theorem paramLabels_relabel :
    (params : List Param) → paramLabels (relabelParams r params) =
      (paramLabels params).map f
  | [] => rfl
  | .plain arg default :: rest => by
    simp only [relabelParams, paramLabels, argumentLabels_relabel arg,
      optionLabels_relabel default, paramLabels_relabel rest, List.map_append]
  | .posOnlyMarker :: rest | .varArgs none :: rest => by
    simp only [relabelParams, paramLabels, paramLabels_relabel rest]
  | .varArgs (some arg) :: rest | .kwArgs arg :: rest => by
    simp only [relabelParams, paramLabels, argumentLabels_relabel arg, paramLabels_relabel rest,
      List.map_append]

end

mutual

theorem patternLabels_relabel :
    (p : Pattern) → patternLabels (relabelPattern r p) =
      (patternLabels p).map f
  | .singleton _ | .wildcard => rfl
  | .capture id => congrArg ([·]) (h.name id).symm
  | .value e => h.exprLabels_relabel e
  | .star name => h.optionalNameLabels name
  | .sequence patterns | .or patterns => patternsLabels_relabel patterns
  | .mapping items rest => by
    simp only [relabelPattern, patternLabels, mappingKeyLabels_relabel items,
      mappingLabels_relabel items, List.map_append]
    exact congrArg _ (h.optionalNameLabels rest)
  | .cls head patterns keywords => by
    simp only [relabelPattern, patternLabels, h.exprLabels_relabel, patternsLabels_relabel patterns,
      keywordPatternLabels_relabel keywords, List.map_append]
  | .bind pattern name => by
    simp only [relabelPattern, patternLabels, patternLabels_relabel pattern, List.map_append, List.map_cons,
      List.map_nil, h.name]

theorem patternsLabels_relabel :
    (ps : List Pattern) → patternsLabels (relabelPatterns r ps) =
      (patternsLabels ps).map f
  | [] => rfl
  | p :: ps => by
    simp only [relabelPatterns, patternsLabels, patternLabels_relabel p, patternsLabels_relabel ps,
      List.map_append]

theorem mappingKeyLabels_relabel :
    (items : List MappingItem) → mappingKeyLabels (relabelMapping r items) =
      (mappingKeyLabels items).map f
  | [] => rfl
  | ⟨_, _⟩ :: rest => by
    simp only [relabelMapping, mappingKeyLabels, h.exprLabels_relabel, mappingKeyLabels_relabel rest,
      List.map_append]

theorem mappingLabels_relabel :
    (items : List MappingItem) → mappingLabels (relabelMapping r items) =
      (mappingLabels items).map f
  | [] => rfl
  | ⟨_, pattern⟩ :: rest => by
    simp only [relabelMapping, mappingLabels, patternLabels_relabel pattern,
      mappingLabels_relabel rest, List.map_append]

theorem keywordPatternLabels_relabel :
    (keywords : List KeywordPattern) →
      keywordPatternLabels (relabelKeywordPatterns r keywords) =
        (keywordPatternLabels keywords).map f
  | [] => rfl
  | ⟨_, pattern⟩ :: rest => by
    simp only [relabelKeywordPatterns, keywordPatternLabels, patternLabels_relabel pattern,
      keywordPatternLabels_relabel rest, List.map_append]

end

theorem withItemLabels_relabel (item : WithItem) :
    withItemLabels (relabelWithItem r item) = (withItemLabels item).map f := by
  simp only [relabelWithItem, withItemLabels, h.exprLabels_relabel, h.optionLabels_relabel,
    List.map_append]

mutual

theorem stmtLabels_relabel :
    (s : Stmt) → stmtLabels (relabelStmt r s) = (stmtLabels s).map f
  | .imports _ | .importFrom _ _ _ | .pass | .breakLoop | .continueLoop => rfl
  | .global names | .nonlocal names => h.nameLabels names
  | .ret _ | .delete _ | .assign _ _ | .augAssign _ _ _ | .annAssign _ _ _ | .raise _ _
  | .assert _ _ | .expr _ => by
    simp only [relabelStmt, stmtLabels, h.exprLabels_relabel, h.listLabels_relabel,
      h.optionLabels_relabel, List.map_append]
  | .functionDef _ _ body _ _ _ => by
    simp only [relabelStmt, stmtLabels, h.paramLabels_relabel, blockLabels_relabel body,
      h.listLabels_relabel, h.optionLabels_relabel, List.map_append, List.map_cons, h.name]
  | .classDef _ _ _ body _ => by
    simp only [relabelStmt, stmtLabels, h.listLabels_relabel, h.keywordLabels_relabel,
      blockLabels_relabel body, List.map_append, List.map_cons, h.name]
  | .forLoop _ _ body orelse _ | .whileLoop _ body orelse | .branch _ body orelse => by
    simp only [relabelStmt, stmtLabels, h.exprLabels_relabel, blockLabels_relabel body,
      blockLabels_relabel orelse, List.map_append]
  | .withBlock items body _ => by
    simp only [relabelStmt, stmtLabels, blockLabels_relabel body, List.map_append,
      List.flatMap_map, List.map_flatMap, h.withItemLabels_relabel]
  | .tryBlock body handlers orelse finalbody => by
    simp only [relabelStmt, stmtLabels, blockLabels_relabel body, handlerLabels_relabel handlers,
      blockLabels_relabel orelse, blockLabels_relabel finalbody, List.map_append]
  | .matchBlock _ cases => by
    simp only [relabelStmt, stmtLabels, h.exprLabels_relabel, caseLabels_relabel cases,
      List.map_append]

theorem blockLabels_relabel :
    (body : List Stmt) → blockLabels (relabelBlock r body) =
      (blockLabels body).map f
  | [] => rfl
  | s :: rest => by
    simp only [relabelBlock, blockLabels, stmtLabels_relabel s, blockLabels_relabel rest,
      List.map_append]

theorem handlerLabels_relabel :
    (handlers : List Handler) → handlerLabels (relabelHandlers r handlers) =
      (handlerLabels handlers).map f
  | [] => rfl
  | ⟨_, name, body⟩ :: rest => by
    simp only [relabelHandlers, handlerLabels, h.optionLabels_relabel, blockLabels_relabel body,
      handlerLabels_relabel rest, List.map_append, h.optionalNameLabels]

theorem caseLabels_relabel :
    (cases : List MatchCase) → caseLabels (relabelCases r cases) =
      (caseLabels cases).map f
  | [] => rfl
  | ⟨_, _, body⟩ :: rest => by
    simp only [relabelCases, caseLabels, h.patternLabels_relabel, h.optionLabels_relabel,
      blockLabels_relabel body, caseLabels_relabel rest, List.map_append]

end

end Relabeling.Carries

end Arbiter.Syntax
