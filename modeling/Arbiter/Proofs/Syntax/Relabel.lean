import Arbiter.Syntax.Label
import Arbiter.Syntax.Relabel

/-! Relabelling twice is relabelling once, by the composition; and a relabeling that leaves the names and
literals of a tree leaves the tree. -/

namespace Arbiter.Syntax

namespace Relabeling

/-- First `r'`, then `r`. -/
def comp (r r' : Relabeling) : Relabeling where
  name := r.name ∘ r'.name
  constant := r.constant ∘ r'.constant
  piece := r.piece ∘ r'.piece
  format := r.format ∘ r'.format

@[simp] theorem comp_name (r r' : Relabeling) (s : String) :
    (r.comp r').name s = r.name (r'.name s) := rfl

@[simp] theorem comp_piece (r r' : Relabeling) (s : String) :
    (r.comp r').piece s = r.piece (r'.piece s) := rfl

end Relabeling

variable (r r' : Relabeling)

mutual

theorem relabelExpr_comp :
    (e : Expr) → relabelExpr r (relabelExpr r' e) = relabelExpr (r.comp r') e
  | .name _ _ | .constant _ => rfl
  | .attribute e _ _ | .starred e _ | .unary _ e | .await e | .yieldFrom e => by
    simp only [relabelExpr, relabelExpr_comp e]
  | .subscript e f _ | .binary e _ f | .named e f => by
    simp only [relabelExpr, relabelExpr_comp e, relabelExpr_comp f]
  | .ifElse e f f' => by
    simp only [relabelExpr, relabelExpr_comp e, relabelExpr_comp f, relabelExpr_comp f']
  | .slice lower upper step => by
    simp only [relabelExpr, relabelOption_comp lower, relabelOption_comp upper,
      relabelOption_comp step]
  | .yield value => by simp only [relabelExpr, relabelOption_comp value]
  | .tuple es _ | .list es _ | .set es | .bool _ es => by
    simp only [relabelExpr, relabelExprs_comp es]
  | .joinedStr parts => by simp only [relabelExpr, relabelParts_comp parts]
  | .dict items => by simp only [relabelExpr, relabelDict_comp items]
  | .compare left rest => by
    simp only [relabelExpr, relabelExpr_comp left, relabelComparands_comp rest]
  | .call func args keywords => by
    simp only [relabelExpr, relabelExpr_comp func, relabelExprs_comp args,
      relabelKeywords_comp keywords]
  | .lambda params body => by
    simp only [relabelExpr, relabelParams_comp params, relabelExpr_comp body]
  | .listComp e generators | .setComp e generators | .generatorExp e generators => by
    simp only [relabelExpr, relabelExpr_comp e, relabelGenerators_comp generators]
  | .dictComp key value generators => by
    simp only [relabelExpr, relabelExpr_comp key, relabelExpr_comp value,
      relabelGenerators_comp generators]

theorem relabelExprs_comp :
    (es : List Expr) → relabelExprs r (relabelExprs r' es) = relabelExprs (r.comp r') es
  | [] => rfl
  | e :: es => by simp only [relabelExprs, relabelExpr_comp e, relabelExprs_comp es]

theorem relabelOption_comp :
    (e : Option Expr) → relabelOption r (relabelOption r' e) = relabelOption (r.comp r') e
  | none => rfl
  | some e => by simp only [relabelOption, relabelExpr_comp e]

theorem relabelParts_comp :
    (parts : List FStringPart) → relabelParts r (relabelParts r' parts) =
      relabelParts (r.comp r') parts
  | [] => rfl
  | .literal s :: rest => by
    simp only [relabelParts, relabelParts_comp rest, Relabeling.comp_piece]
  | .formatted value _ _ :: rest => by
    simp only [relabelParts, relabelExpr_comp value, relabelParts_comp rest, Option.map_map]
    rfl

theorem relabelDict_comp :
    (items : List DictItem) → relabelDict r (relabelDict r' items) = relabelDict (r.comp r') items
  | [] => rfl
  | .entry key value :: rest => by
    simp only [relabelDict, relabelExpr_comp key, relabelExpr_comp value, relabelDict_comp rest]
  | .spread value :: rest => by
    simp only [relabelDict, relabelExpr_comp value, relabelDict_comp rest]

theorem relabelComparands_comp :
    (rest : List Comparand) → relabelComparands r (relabelComparands r' rest) =
      relabelComparands (r.comp r') rest
  | [] => rfl
  | ⟨_, value⟩ :: rest => by
    simp only [relabelComparands, relabelExpr_comp value, relabelComparands_comp rest]

theorem relabelKeywords_comp :
    (keywords : List Keyword) → relabelKeywords r (relabelKeywords r' keywords) =
      relabelKeywords (r.comp r') keywords
  | [] => rfl
  | ⟨_, value⟩ :: rest => by
    simp only [relabelKeywords, relabelExpr_comp value, relabelKeywords_comp rest]

theorem relabelGenerators_comp :
    (generators : List Generator) → relabelGenerators r (relabelGenerators r' generators) =
      relabelGenerators (r.comp r') generators
  | [] => rfl
  | ⟨target, iter, ifs, _⟩ :: rest => by
    simp only [relabelGenerators, relabelExpr_comp target, relabelExpr_comp iter,
      relabelExprs_comp ifs, relabelGenerators_comp rest]

theorem relabelArgument_comp :
    (arg : Argument) → relabelArgument r (relabelArgument r' arg) = relabelArgument (r.comp r') arg
  | ⟨_, annotation⟩ => by
    simp only [relabelArgument, relabelOption_comp annotation, Relabeling.comp_name]

theorem relabelParams_comp :
    (params : List Param) → relabelParams r (relabelParams r' params) =
      relabelParams (r.comp r') params
  | [] => rfl
  | .plain arg default :: rest => by
    simp only [relabelParams, relabelArgument_comp arg, relabelOption_comp default,
      relabelParams_comp rest]
  | .posOnlyMarker :: rest | .varArgs none :: rest => by
    simp only [relabelParams, relabelParams_comp rest]
  | .varArgs (some arg) :: rest | .kwArgs arg :: rest => by
    simp only [relabelParams, relabelArgument_comp arg, relabelParams_comp rest]

end

mutual

theorem relabelPattern_comp :
    (p : Pattern) → relabelPattern r (relabelPattern r' p) = relabelPattern (r.comp r') p
  | .singleton _ | .wildcard | .capture _ => rfl
  | .value e => by simp only [relabelPattern, relabelExpr_comp]
  | .star name => by simp only [relabelPattern, Option.map_map]; rfl
  | .sequence patterns | .or patterns => by
    simp only [relabelPattern, relabelPatterns_comp patterns]
  | .mapping items rest => by
    simp only [relabelPattern, relabelMapping_comp items, Option.map_map]; rfl
  | .cls head patterns keywords => by
    simp only [relabelPattern, relabelExpr_comp, relabelPatterns_comp patterns,
      relabelKeywordPatterns_comp keywords]
  | .bind pattern _ => by
    simp only [relabelPattern, relabelPattern_comp pattern, Relabeling.comp_name]

theorem relabelPatterns_comp :
    (ps : List Pattern) → relabelPatterns r (relabelPatterns r' ps) = relabelPatterns (r.comp r') ps
  | [] => rfl
  | p :: ps => by simp only [relabelPatterns, relabelPattern_comp p, relabelPatterns_comp ps]

theorem relabelMapping_comp :
    (items : List MappingItem) → relabelMapping r (relabelMapping r' items) =
      relabelMapping (r.comp r') items
  | [] => rfl
  | ⟨_, pattern⟩ :: rest => by
    simp only [relabelMapping, relabelExpr_comp, relabelPattern_comp pattern,
      relabelMapping_comp rest]

theorem relabelKeywordPatterns_comp :
    (keywords : List KeywordPattern) →
      relabelKeywordPatterns r (relabelKeywordPatterns r' keywords) =
        relabelKeywordPatterns (r.comp r') keywords
  | [] => rfl
  | ⟨_, pattern⟩ :: rest => by
    simp only [relabelKeywordPatterns, relabelPattern_comp pattern,
      relabelKeywordPatterns_comp rest]

end

theorem relabelWithItem_comp (item : WithItem) :
    relabelWithItem r (relabelWithItem r' item) = relabelWithItem (r.comp r') item := by
  simp only [relabelWithItem, relabelExpr_comp, relabelOption_comp]

mutual

theorem relabelStmt_comp :
    (s : Stmt) → relabelStmt r (relabelStmt r' s) = relabelStmt (r.comp r') s
  | .imports _ | .importFrom _ _ _ | .pass | .breakLoop | .continueLoop => rfl
  | .global _ | .nonlocal _ => by simp only [relabelStmt, List.map_map]; rfl
  | .ret _ | .delete _ | .assign _ _ | .augAssign _ _ _ | .annAssign _ _ _ | .raise _ _
  | .assert _ _ | .expr _ => by
    simp only [relabelStmt, relabelExpr_comp, relabelExprs_comp, relabelOption_comp]
  | .functionDef _ _ body _ _ _ => by
    simp only [relabelStmt, relabelParams_comp, relabelBlock_comp body, relabelExprs_comp,
      relabelOption_comp, Relabeling.comp_name]
  | .classDef _ _ _ body _ => by
    simp only [relabelStmt, relabelExprs_comp, relabelKeywords_comp, relabelBlock_comp body,
      Relabeling.comp_name]
  | .forLoop _ _ body orelse _ | .whileLoop _ body orelse | .branch _ body orelse => by
    simp only [relabelStmt, relabelExpr_comp, relabelBlock_comp body, relabelBlock_comp orelse]
  | .withBlock _ body _ => by
    simp only [relabelStmt, List.map_map, relabelBlock_comp body, Function.comp_def,
      relabelWithItem_comp]
  | .tryBlock body handlers orelse finalbody => by
    simp only [relabelStmt, relabelBlock_comp body, relabelHandlers_comp handlers,
      relabelBlock_comp orelse, relabelBlock_comp finalbody]
  | .matchBlock _ cases => by
    simp only [relabelStmt, relabelExpr_comp, relabelCases_comp cases]

theorem relabelBlock_comp :
    (body : List Stmt) → relabelBlock r (relabelBlock r' body) = relabelBlock (r.comp r') body
  | [] => rfl
  | s :: rest => by simp only [relabelBlock, relabelStmt_comp s, relabelBlock_comp rest]

theorem relabelHandlers_comp :
    (handlers : List Handler) → relabelHandlers r (relabelHandlers r' handlers) =
      relabelHandlers (r.comp r') handlers
  | [] => rfl
  | ⟨_, _, body⟩ :: rest => by
    simp only [relabelHandlers, relabelOption_comp, Option.map_map, relabelBlock_comp body,
      relabelHandlers_comp rest]
    rfl

theorem relabelCases_comp :
    (cases : List MatchCase) → relabelCases r (relabelCases r' cases) =
      relabelCases (r.comp r') cases
  | [] => rfl
  | ⟨_, _, body⟩ :: rest => by
    simp only [relabelCases, relabelPattern_comp, relabelOption_comp, relabelBlock_comp body,
      relabelCases_comp rest]

end

end Arbiter.Syntax

/-! Trees that are left as they are. -/

namespace Arbiter.Syntax

/-- The constant of a literal. -/
def Literal.constant : Literal → Constant
  | ⟨.int, text⟩ => .int text
  | ⟨.float, text⟩ => .float text
  | ⟨.str, text⟩ => .str text

@[simp] theorem literal?_constant (l : Literal) : literal? l.constant = some l := by
  obtain ⟨kind, text⟩ := l
  cases kind <;> rfl

theorem constant_of_literal? {c : Constant} {l : Literal} (h : literal? c = some l) : l.constant = c := by
  cases c <;> cases h <;> rfl

namespace Relabeling

/-- What has the label stays as it is, be it a constant or a piece of an f-string. -/
def Fixes (r : Relabeling) : Label → Prop
  | .name id => r.name id = id
  | .literal l => r.constant l.constant = l.constant ∧ (l.kind = .str → r.piece l.text = l.text)

/-- Constants without a number and format texts stay as they are. -/
structure SparesOthers (r : Relabeling) : Prop where
  constant : ∀ c, literal? c = none → r.constant c = c
  format : r.format = id

theorem SparesOthers.fixes_constant {r : Relabeling} (h : r.SparesOthers) {c : Constant}
    (fixed : ∀ l ∈ (literal? c).toList.map Label.literal, r.Fixes l) : r.constant c = c := by
  cases found : literal? c with
  | none => exact h.constant c found
  | some l =>
    have known := fixed (.literal l) (by simp [found])
    rw [← constant_of_literal? found]
    exact known.1

theorem fixes_option {r : Relabeling} {o : Option String}
    (fixed : ∀ l ∈ o.toList.map Label.name, r.Fixes l) : o.map r.name = o := by
  cases o with
  | none => rfl
  | some id => exact congrArg some (fixed (.name id) List.mem_cons_self)

theorem fixes_names {r : Relabeling} {names : List String} (fixed : ∀ l ∈ names.map Label.name, r.Fixes l) :
    names.map r.name = names :=
  (List.map_congr_left fun id hid => fixed (.name id) (List.mem_map_of_mem hid)).trans (List.map_id' names)

end Relabeling

open Relabeling

section Trees

set_option linter.unusedSectionVars false

variable {r : Relabeling} (spares : r.SparesOthers)
include spares

mutual

theorem relabelExpr_fixed : (e : Expr) → (∀ l ∈ exprLabels e, r.Fixes l) → relabelExpr r e = e
  | .name id ctx, h => congrArg (Expr.name · ctx) (h (.name id) List.mem_cons_self)
  | .constant _, h => congrArg Expr.constant (spares.fixes_constant h)
  | .attribute e _ _, h | .starred e _, h | .unary _ e, h | .await e, h | .yieldFrom e, h => by
    rw [relabelExpr, relabelExpr_fixed e h]
  | .subscript e f _, h | .binary e _ f, h | .named e f, h => by
    rw [exprLabels, List.forall_mem_append] at h
    rw [relabelExpr, relabelExpr_fixed e h.1, relabelExpr_fixed f h.2]
  | .ifElse e f f', h => by
    rw [exprLabels, List.forall_mem_append, List.forall_mem_append] at h
    rw [relabelExpr, relabelExpr_fixed e h.1.1, relabelExpr_fixed f h.1.2, relabelExpr_fixed f' h.2]
  | .slice lower upper step, h => by
    rw [exprLabels, List.forall_mem_append, List.forall_mem_append] at h
    rw [relabelExpr, relabelOption_fixed lower h.1.1, relabelOption_fixed upper h.1.2,
      relabelOption_fixed step h.2]
  | .yield value, h => by rw [relabelExpr, relabelOption_fixed value h]
  | .tuple es _, h | .list es _, h | .set es, h | .bool _ es, h => by rw [relabelExpr, relabelExprs_fixed es h]
  | .joinedStr parts, h => by rw [relabelExpr, relabelParts_fixed parts h]
  | .dict items, h => by rw [relabelExpr, relabelDict_fixed items h]
  | .compare left rest, h => by
    rw [exprLabels, List.forall_mem_append] at h
    rw [relabelExpr, relabelExpr_fixed left h.1, relabelComparands_fixed rest h.2]
  | .call func args keywords, h => by
    rw [exprLabels, List.forall_mem_append, List.forall_mem_append] at h
    rw [relabelExpr, relabelExpr_fixed func h.1.1, relabelExprs_fixed args h.1.2,
      relabelKeywords_fixed keywords h.2]
  | .lambda params body, h => by
    rw [exprLabels, List.forall_mem_append] at h
    rw [relabelExpr, relabelParams_fixed params h.1, relabelExpr_fixed body h.2]
  | .listComp e generators, h | .setComp e generators, h | .generatorExp e generators, h => by
    rw [exprLabels, List.forall_mem_append] at h
    rw [relabelExpr, relabelExpr_fixed e h.1, relabelGenerators_fixed generators h.2]
  | .dictComp key value generators, h => by
    rw [exprLabels, List.forall_mem_append, List.forall_mem_append] at h
    rw [relabelExpr, relabelExpr_fixed key h.1.1, relabelExpr_fixed value h.1.2,
      relabelGenerators_fixed generators h.2]

theorem relabelExprs_fixed : (es : List Expr) → (∀ l ∈ listLabels es, r.Fixes l) → relabelExprs r es = es
  | [], _ => rfl
  | e :: es, h => by
    rw [listLabels, List.forall_mem_append] at h
    rw [relabelExprs, relabelExpr_fixed e h.1, relabelExprs_fixed es h.2]

theorem relabelOption_fixed : (o : Option Expr) → (∀ l ∈ optionLabels o, r.Fixes l) → relabelOption r o = o
  | none, _ => rfl
  | some e, h => by rw [relabelOption, relabelExpr_fixed e h]

theorem relabelParts_fixed :
    (parts : List FStringPart) → (∀ l ∈ partLabels parts, r.Fixes l) → relabelParts r parts = parts
  | [], _ => rfl
  | .literal _ :: rest, h => by
    rw [partLabels, List.forall_mem_cons] at h
    rw [relabelParts, h.1.2 rfl, relabelParts_fixed rest h.2]
  | .formatted value _ _ :: rest, h => by
    rw [partLabels, List.forall_mem_append] at h
    rw [relabelParts, relabelExpr_fixed value h.1, relabelParts_fixed rest h.2, spares.format,
      Option.map_id_apply]

theorem relabelDict_fixed :
    (items : List DictItem) → (∀ l ∈ dictLabels items, r.Fixes l) → relabelDict r items = items
  | [], _ => rfl
  | .entry key value :: rest, h => by
    rw [dictLabels, List.forall_mem_append, List.forall_mem_append] at h
    rw [relabelDict, relabelExpr_fixed key h.1.1, relabelExpr_fixed value h.1.2, relabelDict_fixed rest h.2]
  | .spread value :: rest, h => by
    rw [dictLabels, List.forall_mem_append] at h
    rw [relabelDict, relabelExpr_fixed value h.1, relabelDict_fixed rest h.2]

theorem relabelComparands_fixed :
    (rest : List Comparand) → (∀ l ∈ comparandLabels rest, r.Fixes l) → relabelComparands r rest = rest
  | [], _ => rfl
  | ⟨_, value⟩ :: rest, h => by
    rw [comparandLabels, List.forall_mem_append] at h
    rw [relabelComparands, relabelExpr_fixed value h.1, relabelComparands_fixed rest h.2]

theorem relabelKeywords_fixed :
    (keywords : List Keyword) → (∀ l ∈ keywordLabels keywords, r.Fixes l) → relabelKeywords r keywords = keywords
  | [], _ => rfl
  | ⟨_, value⟩ :: rest, h => by
    rw [keywordLabels, List.forall_mem_append] at h
    rw [relabelKeywords, relabelExpr_fixed value h.1, relabelKeywords_fixed rest h.2]

theorem relabelGenerators_fixed :
    (gens : List Generator) → (∀ l ∈ generatorLabels gens, r.Fixes l) → relabelGenerators r gens = gens
  | [], _ => rfl
  | ⟨target, iter, ifs, _⟩ :: rest, h => by
    simp only [generatorLabels, List.forall_mem_append] at h
    rw [relabelGenerators, relabelExpr_fixed target h.1.1.1, relabelExpr_fixed iter h.1.1.2,
      relabelExprs_fixed ifs h.1.2, relabelGenerators_fixed rest h.2]

theorem relabelArgument_fixed :
    (arg : Argument) → (∀ l ∈ argumentLabels arg, r.Fixes l) → relabelArgument r arg = arg
  | ⟨id, annotation⟩, h => by
    rw [argumentLabels, List.forall_mem_cons] at h
    have same : r.name id = id := h.1
    rw [relabelArgument, same, relabelOption_fixed annotation h.2]

theorem relabelParams_fixed :
    (params : List Param) → (∀ l ∈ paramLabels params, r.Fixes l) → relabelParams r params = params
  | [], _ => rfl
  | .plain arg default :: rest, h => by
    rw [paramLabels, List.forall_mem_append, List.forall_mem_append] at h
    rw [relabelParams, relabelArgument_fixed arg h.1.1, relabelOption_fixed default h.1.2,
      relabelParams_fixed rest h.2]
  | .posOnlyMarker :: rest, h | .varArgs none :: rest, h => by rw [relabelParams, relabelParams_fixed rest h]
  | .varArgs (some arg) :: rest, h | .kwArgs arg :: rest, h => by
    rw [paramLabels, List.forall_mem_append] at h
    rw [relabelParams, relabelArgument_fixed arg h.1, relabelParams_fixed rest h.2]

end

mutual

theorem relabelPattern_fixed : (p : Pattern) → (∀ l ∈ patternLabels p, r.Fixes l) → relabelPattern r p = p
  | .singleton _, _ | .wildcard, _ => rfl
  | .capture id, h => congrArg Pattern.capture (h (.name id) List.mem_cons_self)
  | .value e, h => congrArg Pattern.value (relabelExpr_fixed spares e h)
  | .star _, h => congrArg Pattern.star (fixes_option h)
  | .sequence patterns, h | .or patterns, h => by rw [relabelPattern, relabelPatterns_fixed patterns h]
  | .mapping items rest, h => by
    rw [patternLabels, List.forall_mem_append, List.forall_mem_append] at h
    rw [relabelPattern, relabelMapping_fixed items h.1.1 h.1.2, fixes_option h.2]
  | .cls head patterns keywords, h => by
    rw [patternLabels, List.forall_mem_append, List.forall_mem_append] at h
    rw [relabelPattern, relabelExpr_fixed spares head h.1.1, relabelPatterns_fixed patterns h.1.2,
      relabelKeywordPatterns_fixed keywords h.2]
  | .bind pattern id, h => by
    rw [patternLabels, List.forall_mem_append, List.forall_mem_singleton] at h
    have same : r.name id = id := h.2
    rw [relabelPattern, relabelPattern_fixed pattern h.1, same]

theorem relabelPatterns_fixed :
    (ps : List Pattern) → (∀ l ∈ patternsLabels ps, r.Fixes l) → relabelPatterns r ps = ps
  | [], _ => rfl
  | p :: ps, h => by
    rw [patternsLabels, List.forall_mem_append] at h
    rw [relabelPatterns, relabelPattern_fixed p h.1, relabelPatterns_fixed ps h.2]

theorem relabelMapping_fixed : (items : List MappingItem) → (∀ l ∈ mappingKeyLabels items, r.Fixes l) →
    (∀ l ∈ mappingLabels items, r.Fixes l) → relabelMapping r items = items
  | [], _, _ => rfl
  | ⟨key, pattern⟩ :: rest, keys, h => by
    rw [mappingKeyLabels, List.forall_mem_append] at keys
    rw [mappingLabels, List.forall_mem_append] at h
    rw [relabelMapping, relabelExpr_fixed spares key keys.1, relabelPattern_fixed pattern h.1,
      relabelMapping_fixed rest keys.2 h.2]

theorem relabelKeywordPatterns_fixed : (keywords : List KeywordPattern) →
    (∀ l ∈ keywordPatternLabels keywords, r.Fixes l) → relabelKeywordPatterns r keywords = keywords
  | [], _ => rfl
  | ⟨_, pattern⟩ :: rest, h => by
    rw [keywordPatternLabels, List.forall_mem_append] at h
    rw [relabelKeywordPatterns, relabelPattern_fixed pattern h.1, relabelKeywordPatterns_fixed rest h.2]

end

theorem relabelWithItem_fixed {item : WithItem} (h : ∀ l ∈ withItemLabels item, r.Fixes l) :
    relabelWithItem r item = item := by
  rw [withItemLabels, List.forall_mem_append] at h
  rw [relabelWithItem, relabelExpr_fixed spares _ h.1, relabelOption_fixed spares _ h.2]

mutual

theorem relabelStmt_fixed : (s : Stmt) → (∀ l ∈ stmtLabels s, r.Fixes l) → relabelStmt r s = s
  | .imports _, _ | .importFrom .., _ | .pass, _ | .breakLoop, _ | .continueLoop, _ => rfl
  | .global _, h => congrArg Stmt.global (fixes_names h)
  | .nonlocal _, h => congrArg Stmt.nonlocal (fixes_names h)
  | .functionDef id params body decorators returns _, h => by
    simp only [stmtLabels, List.cons_append, List.forall_mem_cons, List.forall_mem_append] at h
    obtain ⟨same, ⟨⟨hp, hb⟩, hd⟩, hr⟩ := h
    have same : r.name id = id := same
    rw [relabelStmt, same, relabelParams_fixed spares params hp, relabelBlock_fixed body hb,
      relabelExprs_fixed spares decorators hd, relabelOption_fixed spares returns hr]
  | .classDef id bases keywords body decorators, h => by
    simp only [stmtLabels, List.cons_append, List.forall_mem_cons, List.forall_mem_append] at h
    obtain ⟨same, ⟨⟨hs, hk⟩, hb⟩, hd⟩ := h
    have same : r.name id = id := same
    rw [relabelStmt, same, relabelExprs_fixed spares bases hs, relabelKeywords_fixed spares keywords hk,
      relabelBlock_fixed body hb, relabelExprs_fixed spares decorators hd]
  | .ret value, h => congrArg Stmt.ret (relabelOption_fixed spares value h)
  | .delete targets, h => congrArg Stmt.delete (relabelExprs_fixed spares targets h)
  | .expr value, h => congrArg Stmt.expr (relabelExpr_fixed spares value h)
  | .assign targets value, h => by
    rw [stmtLabels, List.forall_mem_append] at h
    rw [relabelStmt, relabelExprs_fixed spares targets h.1, relabelExpr_fixed spares value h.2]
  | .augAssign target _ value, h => by
    rw [stmtLabels, List.forall_mem_append] at h
    rw [relabelStmt, relabelExpr_fixed spares target h.1, relabelExpr_fixed spares value h.2]
  | .annAssign target annotation value, h => by
    rw [stmtLabels, List.forall_mem_append, List.forall_mem_append] at h
    rw [relabelStmt, relabelExpr_fixed spares target h.1.1, relabelExpr_fixed spares annotation h.1.2,
      relabelOption_fixed spares value h.2]
  | .raise exc cause, h => by
    rw [stmtLabels, List.forall_mem_append] at h
    rw [relabelStmt, relabelOption_fixed spares exc h.1, relabelOption_fixed spares cause h.2]
  | .assert test msg, h => by
    rw [stmtLabels, List.forall_mem_append] at h
    rw [relabelStmt, relabelExpr_fixed spares test h.1, relabelOption_fixed spares msg h.2]
  | .forLoop target iter body orelse _, h => by
    simp only [stmtLabels, List.forall_mem_append] at h
    rw [relabelStmt, relabelExpr_fixed spares target h.1.1.1, relabelExpr_fixed spares iter h.1.1.2,
      relabelBlock_fixed body h.1.2, relabelBlock_fixed orelse h.2]
  | .whileLoop test body orelse, h | .branch test body orelse, h => by
    rw [stmtLabels, List.forall_mem_append, List.forall_mem_append] at h
    rw [relabelStmt, relabelExpr_fixed spares test h.1.1, relabelBlock_fixed body h.1.2,
      relabelBlock_fixed orelse h.2]
  | .withBlock items body _, h => by
    rw [stmtLabels, List.forall_mem_append] at h
    have same : items.map (relabelWithItem r) = items := by
      refine (List.map_congr_left fun i hi => ?_).trans (List.map_id' items)
      exact relabelWithItem_fixed spares fun l hl => h.1 l (List.mem_flatMap.2 ⟨i, hi, hl⟩)
    rw [relabelStmt, same, relabelBlock_fixed body h.2]
  | .tryBlock body handlers orelse finalbody, h => by
    simp only [stmtLabels, List.forall_mem_append] at h
    rw [relabelStmt, relabelBlock_fixed body h.1.1.1, relabelHandlers_fixed handlers h.1.1.2,
      relabelBlock_fixed orelse h.1.2, relabelBlock_fixed finalbody h.2]
  | .matchBlock subject cases, h => by
    rw [stmtLabels, List.forall_mem_append] at h
    rw [relabelStmt, relabelExpr_fixed spares subject h.1, relabelCases_fixed cases h.2]

theorem relabelBlock_fixed : (body : List Stmt) → (∀ l ∈ blockLabels body, r.Fixes l) → relabelBlock r body = body
  | [], _ => rfl
  | s :: rest, h => by
    rw [blockLabels, List.forall_mem_append] at h
    rw [relabelBlock, relabelStmt_fixed s h.1, relabelBlock_fixed rest h.2]

theorem relabelHandlers_fixed :
    (handlers : List Handler) → (∀ l ∈ handlerLabels handlers, r.Fixes l) → relabelHandlers r handlers = handlers
  | [], _ => rfl
  | ⟨type, id, body⟩ :: rest, h => by
    simp only [handlerLabels, List.forall_mem_append] at h
    rw [relabelHandlers, relabelOption_fixed spares type h.1.1.1, fixes_option h.1.1.2, relabelBlock_fixed body h.1.2,
      relabelHandlers_fixed rest h.2]

theorem relabelCases_fixed :
    (cases : List MatchCase) → (∀ l ∈ caseLabels cases, r.Fixes l) → relabelCases r cases = cases
  | [], _ => rfl
  | ⟨pattern, guard, body⟩ :: rest, h => by
    simp only [caseLabels, List.forall_mem_append] at h
    rw [relabelCases, relabelPattern_fixed spares pattern h.1.1.1, relabelOption_fixed spares guard h.1.1.2,
      relabelBlock_fixed body h.1.2, relabelCases_fixed rest h.2]

end

end Trees

end Arbiter.Syntax
