import Arbiter.Flow.Item
import Arbiter.Proofs.Parsing.Plain

/-! Code without `yield` whose stars stand only on the items of displays and on the arguments of calls
and classes. -/

namespace Arbiter.Syntax

mutual

/-- Nothing in the expression yields, and stars stand only on the items of displays and the arguments of
calls, and at its top if `star`. -/
def Expr.isTame (star : Bool) : Expr → Bool
  | .name _ _ | .constant _ => true
  | .joinedStr parts => partsTame parts
  | .attribute value _ _ => value.isTame false
  | .subscript value index _ => value.isTame false && index.isTame false
  | .slice lower upper step => optionTame lower && optionTame upper && optionTame step
  | .starred value _ => star && value.isTame false
  | .tuple elts _ | .list elts _ | .set elts => allTame true elts
  | .dict items => dictTame items
  | .binary left _ right => left.isTame false && right.isTame false
  | .unary _ operand => operand.isTame false
  | .bool _ values => allTame false values
  | .compare left rest => left.isTame false && comparandsTame rest
  | .call func args keywords => func.isTame false && allTame true args && keywordsTame keywords
  | .ifElse test body orelse => test.isTame false && body.isTame false && orelse.isTame false
  | .lambda params body => paramsTame params && body.isTame false
  | .listComp elt generators | .setComp elt generators | .generatorExp elt generators =>
    elt.isTame false && generatorsTame generators
  | .dictComp key value generators =>
    key.isTame false && value.isTame false && generatorsTame generators
  | .await value => value.isTame false
  | .yield _ | .yieldFrom _ => false
  | .named target value => target.isTame false && value.isTame false

def allTame (star : Bool) : List Expr → Bool
  | [] => true
  | e :: es => e.isTame star && allTame star es

def optionTame : Option Expr → Bool
  | none => true
  | some e => e.isTame false

def partsTame : List FStringPart → Bool
  | [] => true
  | .literal _ :: rest => partsTame rest
  | .formatted value _ _ :: rest => value.isTame false && partsTame rest

def dictTame : List DictItem → Bool
  | [] => true
  | .entry key value :: rest => key.isTame false && value.isTame false && dictTame rest
  | .spread value :: rest => value.isTame false && dictTame rest

def comparandsTame : List Comparand → Bool
  | [] => true
  | ⟨_, value⟩ :: rest => value.isTame false && comparandsTame rest

def keywordsTame : List Keyword → Bool
  | [] => true
  | ⟨_, value⟩ :: rest => value.isTame false && keywordsTame rest

def generatorsTame : List Generator → Bool
  | [] => true
  | ⟨target, iter, ifs, _⟩ :: rest =>
    target.isTame false && iter.isTame false && allTame false ifs && generatorsTame rest

def argumentTame : Argument → Bool
  | ⟨_, annotation⟩ => optionTame annotation

def paramsTame : List Param → Bool
  | [] => true
  | .plain arg default :: rest => argumentTame arg && optionTame default && paramsTame rest
  | .posOnlyMarker :: rest | .varArgs none :: rest => paramsTame rest
  | .varArgs (some arg) :: rest | .kwArgs arg :: rest => argumentTame arg && paramsTame rest

end

mutual

def Pattern.isTame : Pattern → Bool
  | .value e => e.isTame false
  | .singleton _ | .star _ | .wildcard | .capture _ => true
  | .sequence patterns | .or patterns => patternsTame patterns
  | .mapping items _ => mappingTame items
  | .cls head patterns keywords =>
    head.isTame false && patternsTame patterns && keywordPatternsTame keywords
  | .bind pattern _ => pattern.isTame

def patternsTame : List Pattern → Bool
  | [] => true
  | p :: ps => p.isTame && patternsTame ps

def mappingTame : List MappingItem → Bool
  | [] => true
  | ⟨key, pattern⟩ :: rest => key.isTame false && pattern.isTame && mappingTame rest

def keywordPatternsTame : List KeywordPattern → Bool
  | [] => true
  | ⟨_, pattern⟩ :: rest => pattern.isTame && keywordPatternsTame rest

end

def WithItem.isTame (item : WithItem) : Bool := item.context.isTame false && optionTame item.vars

mutual

def Stmt.isTame : Stmt → Bool
  | .functionDef _ params body decorators returns _ =>
    paramsTame params && blockTame body && allTame false decorators && optionTame returns
  | .classDef _ bases keywords body decorators =>
    allTame true bases && keywordsTame keywords && blockTame body && allTame false decorators
  | .ret value => optionTame value
  | .delete targets => allTame false targets
  | .assign targets value => allTame false targets && value.isTame false
  | .augAssign target _ value => target.isTame false && value.isTame false
  | .annAssign target annotation value =>
    target.isTame false && annotation.isTame false && optionTame value
  | .forLoop target iter body orelse _ =>
    target.isTame false && iter.isTame false && blockTame body && blockTame orelse
  | .whileLoop test body orelse | .branch test body orelse =>
    test.isTame false && blockTame body && blockTame orelse
  | .withBlock items body _ => items.all WithItem.isTame && blockTame body
  | .raise exc cause => optionTame exc && optionTame cause
  | .tryBlock body handlers orelse finalbody =>
    blockTame body && handlersTame handlers && blockTame orelse && blockTame finalbody
  | .assert test msg => test.isTame false && optionTame msg
  | .imports _ | .importFrom _ _ _ | .global _ | .nonlocal _ => true
  | .matchBlock subject cases => subject.isTame false && casesTame cases
  | .expr value => value.isTame false
  | .pass | .breakLoop | .continueLoop => true

def blockTame : List Stmt → Bool
  | [] => true
  | s :: rest => s.isTame && blockTame rest

def handlersTame : List Handler → Bool
  | [] => true
  | ⟨type, _, body⟩ :: rest => optionTame type && blockTame body && handlersTame rest

def casesTame : List MatchCase → Bool
  | [] => true
  | ⟨pattern, guard, body⟩ :: rest =>
    pattern.isTame && optionTame guard && blockTame body && casesTame rest

end

/-! What tameness says about the members of lists. -/

theorem allTame_iff {star : Bool} {es : List Expr} :
    allTame star es = true ↔ ∀ e ∈ es, e.isTame star = true := by
  induction es with
  | nil => simp [allTame]
  | cons e es ih => simp [allTame, ih]

theorem optionTame_iff {o : Option Expr} :
    optionTame o = true ↔ ∀ e ∈ o, e.isTame false = true := by
  cases o <;> simp [optionTame]

theorem partsTame_iff {parts : List FStringPart} : partsTame parts = true ↔
    ∀ value conversion spec, .formatted value conversion spec ∈ parts → value.isTame false = true := by
  induction parts with
  | nil => simp [partsTame]
  | cons part parts ih =>
    cases part with
    | literal s => simp [partsTame, ih]
    | formatted value conversion spec =>
      rw [partsTame, Bool.and_eq_true, ih]
      refine ⟨fun ⟨hv, more⟩ v c s member => ?_, fun h => ⟨h value conversion spec List.mem_cons_self,
        fun v c s member => h v c s (.tail _ member)⟩⟩
      rcases List.mem_cons.1 member with same | member
      · cases same
        exact hv
      · exact more v c s member

theorem dictTame_iff {items : List DictItem} :
    dictTame items = true ↔ ∀ item ∈ items, ∀ e ∈ item.parts, e.isTame false = true := by
  induction items with
  | nil => simp [dictTame]
  | cons item items ih => cases item <;> simp [dictTame, DictItem.parts, ih]

theorem comparandsTame_iff {rest : List Comparand} :
    comparandsTame rest = true ↔ ∀ c ∈ rest, c.value.isTame false = true := by
  induction rest with
  | nil => simp [comparandsTame]
  | cons c rest ih =>
    obtain ⟨op, value⟩ := c
    simp [comparandsTame, ih]

theorem keywordsTame_iff {keywords : List Keyword} :
    keywordsTame keywords = true ↔ ∀ k ∈ keywords, k.value.isTame false = true := by
  induction keywords with
  | nil => simp [keywordsTame]
  | cons k keywords ih =>
    obtain ⟨arg, value⟩ := k
    simp [keywordsTame, ih]

theorem paramsTame_iff {params : List Param} : paramsTame params = true ↔ ∀ p ∈ params,
    (∀ e ∈ p.annotation?, e.isTame false = true) ∧ ∀ e ∈ p.default?, e.isTame false = true := by
  induction params with
  | nil => simp [paramsTame]
  | cons p params ih =>
    rw [List.forall_mem_cons, ← ih]
    match p with
    | .plain ⟨_, annotation⟩ default =>
      simp only [paramsTame, argumentTame, Bool.and_eq_true, optionTame_iff, Param.annotation?,
        Param.default?]
    | .posOnlyMarker | .varArgs none => simp [paramsTame, Param.annotation?, Param.default?]
    | .varArgs (some ⟨_, annotation⟩) | .kwArgs ⟨_, annotation⟩ =>
      simp [paramsTame, argumentTame, optionTame_iff, Param.annotation?, Param.default?]

theorem patternsTame_iff {ps : List Pattern} :
    patternsTame ps = true ↔ ∀ p ∈ ps, p.isTame = true := by
  induction ps with
  | nil => simp [patternsTame]
  | cons p ps ih => simp [patternsTame, ih]

theorem mappingTame_iff {items : List MappingItem} : mappingTame items = true ↔
    ∀ item ∈ items, item.key.isTame false = true ∧ item.pattern.isTame = true := by
  induction items with
  | nil => simp [mappingTame]
  | cons item items ih =>
    obtain ⟨key, pattern⟩ := item
    simp [mappingTame, ih]

theorem keywordPatternsTame_iff {keywords : List KeywordPattern} :
    keywordPatternsTame keywords = true ↔ ∀ k ∈ keywords, k.pattern.isTame = true := by
  induction keywords with
  | nil => simp [keywordPatternsTame]
  | cons k keywords ih =>
    obtain ⟨attr, pattern⟩ := k
    simp [keywordPatternsTame, ih]

theorem blockTame_iff {body : List Stmt} : blockTame body = true ↔ ∀ s ∈ body, s.isTame = true := by
  induction body with
  | nil => simp [blockTame]
  | cons s body ih => simp [blockTame, ih]

theorem handlersTame_iff {handlers : List Handler} : handlersTame handlers = true ↔
    ∀ h ∈ handlers, optionTame h.type = true ∧ blockTame h.body = true := by
  induction handlers with
  | nil => simp [handlersTame]
  | cons h handlers ih =>
    obtain ⟨type, name, body⟩ := h
    simp [handlersTame, ih]

theorem casesTame_iff {cases : List MatchCase} : casesTame cases = true ↔
    ∀ c ∈ cases, (c.pattern.isTame = true ∧ optionTame c.guard = true) ∧ blockTame c.body = true := by
  induction cases with
  | nil => simp [casesTame]
  | cons c cases ih =>
    obtain ⟨pattern, guard, body⟩ := c
    simp [casesTame, ih]

theorem isTame_true {e : Expr} (h : e.isTame false = true) : e.isTame true = true := by
  cases e with
  | starred value ctx => cases h
  | _ => exact h

mutual

theorem asTarget_isTame {ctx : Context} (star : Bool) : ∀ (e : Expr) {t : Expr},
    e.asTarget? ctx = some t → t.isTame star = e.isTame star
  | .name .., _, rfl | .attribute .., _, rfl | .subscript .., _, rfl => rfl
  | .starred value _, t, h => by
    obtain ⟨v, found, rfl⟩ := Option.map_eq_some_iff.1 h
    simp only [Expr.isTame, asTarget_isTame false value found]
  | .tuple elts _, t, h | .list elts _, t, h => by
    obtain ⟨ts, found, rfl⟩ := Option.map_eq_some_iff.1 h
    simp only [Expr.isTame, asTargets_allTame true elts found]

theorem asTargets_allTame {ctx : Context} (star : Bool) : ∀ (es : List Expr) {ts : List Expr},
    asTargets? ctx es = some ts → allTame star ts = allTame star es
  | [], _, rfl => rfl
  | e :: es, ts, h => by
    simp only [asTargets?, Option.bind_eq_bind, Option.bind_eq_some_iff, Option.pure_def] at h
    obtain ⟨t, first, ts', rest, same⟩ := h
    cases same
    simp only [allTame, asTarget_isTame star e first, asTargets_allTame star es rest]

end

end Arbiter.Syntax

namespace Arbiter.Flow.Item

def isTame : Item → Bool
  | stmt s => s.isTame
  | expr e => e.isTame false

end Arbiter.Flow.Item
