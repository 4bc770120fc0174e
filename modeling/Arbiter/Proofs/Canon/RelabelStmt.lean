import Arbiter.Proofs.Canon.Relabel
import Arbiter.Proofs.Parsing.Regular

/-! Canonical form of patterns and statements. Main statement: tame statements from a source, relabeled
with placeholders, keep to the grammar of canonical form. -/

namespace Arbiter.Syntax

section Lists

variable (r : Relabeling)

theorem relabelPatterns_eq (ps : List Pattern) : relabelPatterns r ps = ps.map (relabelPattern r) := by
  induction ps with
  | nil => rfl
  | cons p ps ih => rw [relabelPatterns, ih, List.map_cons]

theorem relabelMapping_eq (items : List MappingItem) :
    relabelMapping r items = items.map fun i => ⟨relabelExpr r i.key, relabelPattern r i.pattern⟩ := by
  induction items with
  | nil => rfl
  | cons i items ih =>
    obtain ⟨key, pattern⟩ := i
    rw [relabelMapping, ih, List.map_cons]

theorem relabelKeywordPatterns_eq (ks : List KeywordPattern) :
    relabelKeywordPatterns r ks = ks.map fun k => ⟨k.attr, relabelPattern r k.pattern⟩ := by
  induction ks with
  | nil => rfl
  | cons k ks ih =>
    obtain ⟨attr, pattern⟩ := k
    rw [relabelKeywordPatterns, ih, List.map_cons]

theorem relabelBlock_eq (body : List Stmt) : relabelBlock r body = body.map (relabelStmt r) := by
  induction body with
  | nil => rfl
  | cons s body ih => rw [relabelBlock, ih, List.map_cons]

theorem relabelHandlers_eq (handlers : List Handler) : relabelHandlers r handlers =
    handlers.map fun h => ⟨relabelOption r h.type, h.name.map r.name, relabelBlock r h.body⟩ := by
  induction handlers with
  | nil => rfl
  | cons h handlers ih =>
    obtain ⟨type, name, body⟩ := h
    rw [relabelHandlers, ih, List.map_cons]

theorem relabelCases_eq (cases : List MatchCase) : relabelCases r cases =
    cases.map fun c => ⟨relabelPattern r c.pattern, relabelOption r c.guard, relabelBlock r c.body⟩ := by
  induction cases with
  | nil => rfl
  | cons c cases ih =>
    obtain ⟨pattern, guard, body⟩ := c
    rw [relabelCases, ih, List.map_cons]

theorem relabelExpr_dotted (id : String) (attrs : List String) :
    relabelExpr r (dotted id attrs) = dotted (r.name id) attrs := by
  induction attrs using List.reverseRecOn with
  | nil => rfl
  | append_singleton attrs attr ih =>
    simp only [dotted, List.foldl_append, List.foldl_cons, List.foldl_nil, relabelExpr] at ih ⊢
    rw [ih]

end Lists

section Shown

variable {r : Relabeling} (canonical : r.IsCanonical)
include canonical

theorem binds_relabel (id : String) : Leeway.shown.Binds (r.name id) :=
  ⟨(canonical.name id).isIdentifier, canonical.name id⟩

theorem binds_option {o : Option String} : ∀ id ∈ o.map r.name, Leeway.shown.Binds id := by
  cases o with
  | none => nofun
  | some id =>
    rintro _ ⟨⟩
    exact binds_relabel canonical id

theorem binds_names {names : List String} : ∀ id ∈ names.map r.name, Leeway.shown.Binds id :=
  List.forall_mem_map.2 fun id _ => binds_relabel canonical id

theorem isLed_relabel : ∀ e : Expr, (relabelExpr r e).isLed = e.isLed
  | .constant c => by
    rw [relabelExpr]
    cases found : literal? c with
    | none => rw [canonical.other c found]
    | some l =>
      obtain ⟨s, -, same⟩ := canonical.literal c (by rw [found]; rfl)
      rw [same]
      cases c <;> first | rfl | cases found
  | .binary left _ _ | .attribute left _ _ | .subscript left _ _ | .call left _ _ => by
    simp only [relabelExpr, Expr.isLed, isLed_relabel left, strength_relabel]
  | .name .. | .joinedStr _ | .slice .. | .starred .. | .tuple .. | .list .. | .set _ | .dict _
  | .unary .. | .bool .. | .compare .. | .ifElse .. | .lambda .. | .listComp .. | .setComp ..
  | .generatorExp .. | .dictComp .. | .await _ | .yield _ | .yieldFrom _ | .named .. => rfl

omit canonical in
theorem isStar_relabel (p : Pattern) : (relabelPattern r p).isStar = p.isStar := by
  cases p <;> rfl

theorem Pattern.Formed.shown {p : Pattern} (h : p.Formed .source) :
    p.isTame = true → (relabelPattern r p).Formed .shown := by
  induction h with
  | value h led tight =>
    intro tame
    exact .value (Expr.Formed.shown canonical h tame) ((isLed_relabel canonical _).trans led)
      (tight.trans_eq (strength_relabel r _).symm)
  | @dotted id attr attrs h =>
    intro tame
    have head := Expr.Formed.shown canonical h tame
    rw [relabelPattern]
    rw [relabelExpr_dotted] at head ⊢
    exact .dotted head
  | singleton c => exact fun _ => .singleton c
  | sequence _ ih =>
    intro tame
    rw [relabelPattern, relabelPatterns_eq]
    exact .sequence (List.forall_mem_map.2 fun p hp => ih p hp (patternsTame_iff.1 tame p hp))
  | mapping keys _ _ alone ih =>
    intro tame
    have plain := mappingTame_iff.1 tame
    rw [relabelPattern, relabelMapping_eq]
    exact .mapping
      (List.forall_mem_map.2 fun i hi => Expr.Formed.shown canonical (keys i hi) (plain i hi).1)
      (List.forall_mem_map.2 fun i hi => ih i hi (plain i hi).2) (binds_option canonical)
      (List.forall_mem_map.2 fun i hi => (isStar_relabel _).trans (alone i hi))
  | @cls id attrs _ _ head _ names _ alone keywordsAlone ihp ihk =>
    intro tame
    simp only [Pattern.isTame, Bool.and_eq_true] at tame
    have head := Expr.Formed.shown canonical head tame.1.1
    rw [relabelPattern, relabelPatterns_eq, relabelKeywordPatterns_eq]
    rw [relabelExpr_dotted] at head ⊢
    exact .cls head (List.forall_mem_map.2 fun p hp => ihp p hp (patternsTame_iff.1 tame.1.2 p hp))
      (List.forall_mem_map.2 names)
      (List.forall_mem_map.2 fun k hk => ihk k hk (keywordPatternsTame_iff.1 tame.2 k hk))
      (List.forall_mem_map.2 fun p hp => (isStar_relabel p).trans (alone p hp))
      (List.forall_mem_map.2 fun k hk => (isStar_relabel _).trans (keywordsAlone k hk))
  | star _ => exact fun _ => .star (binds_option canonical)
  | wildcard => exact fun _ => .wildcard
  | capture _ => exact fun _ => .capture (binds_relabel canonical _)
  | bind _ _ alone ih =>
    exact fun tame => .bind (ih tame) (binds_relabel canonical _) ((isStar_relabel _).trans alone)
  | or _ _ _ alone ihf ihs ihr =>
    intro tame
    simp only [Pattern.isTame, patternsTame, Bool.and_eq_true] at tame
    rw [relabelPattern, relabelPatterns_eq]
    exact .or (ihf tame.1) (ihs tame.2.1)
      (List.forall_mem_map.2 fun p hp => ihr p hp (patternsTame_iff.1 tame.2.2 p hp))
      (by simpa [relabelPatterns_eq, isStar_relabel] using alone)

/-! Statements. -/

theorem shown_optional {o : Option Expr} (h : ∀ e ∈ o, e.Formed) (tame : optionTame o = true) :
    ∀ e ∈ relabelOption r o, Regular .shown (.expr e) :=
  shown_option (fun e he => isShown_of_regular canonical (h e he)) tame

theorem shown_list {es : List Expr} (h : ∀ e ∈ es, e.Formed) (tame : allTame false es = true) :
    ∀ e ∈ relabelExprs r es, Regular .shown (.expr e) :=
  shown_exprs (fun e he => isShown_of_regular canonical (h e he)) tame

theorem Targets.shown {ctx : Context} {head t : Expr} (h : Targets .source ctx head t)
    (tame : t.isTame false = true) : Targets .shown ctx (relabelExpr r head) (relabelExpr r t) where
  regular := Expr.Formed.shown canonical h.regular (asTarget_isTame false head h.same ▸ tame)
  same := asTarget_relabel r head h.same

theorem Param.Formed.shown {p : Param} (h : p.Formed .source)
    (annotated : ∀ e ∈ p.annotation?, e.isTame false = true)
    (default : ∀ e ∈ p.default?, e.isTame false = true) : (relabelParam r p).Formed .shown := by
  have part : ∀ {o : Option Expr}, (∀ e ∈ o, e.Formed) → (∀ e ∈ o, e.isTame false = true) →
      ∀ e ∈ relabelOption r o, Regular .shown (.expr e) := fun h tame =>
    shown_optional canonical h (optionTame_iff.2 tame)
  refine ⟨?_, ?_, ?_⟩
  · match p with
    | .plain ⟨_, _⟩ _ | .varArgs (some ⟨_, _⟩) | .kwArgs ⟨_, _⟩ =>
      rintro _ ⟨⟩
      exact binds_relabel canonical _
    | .posOnlyMarker | .varArgs none => nofun
  · match p with
    | .plain ⟨_, _⟩ _ | .varArgs (some ⟨_, _⟩) | .kwArgs ⟨_, _⟩ => exact part h.annotation annotated
    | .posOnlyMarker | .varArgs none => nofun
  · match p with
    | .plain _ _ => exact part h.default default
    | .posOnlyMarker | .varArgs none | .varArgs (some _) | .kwArgs _ => nofun

theorem WithItem.Formed.shown {item : WithItem} (h : item.Formed .source) (tame : item.isTame = true) :
    (relabelWithItem r item).Formed .shown := by
  simp only [WithItem.isTame, Bool.and_eq_true] at tame
  refine ⟨Expr.Formed.shown canonical h.context tame.1, ?_⟩
  intro t ht
  simp only [relabelWithItem, relabelOption_eq, Option.mem_map] at ht
  obtain ⟨u, hu, rfl⟩ := ht
  obtain ⟨head, targets⟩ := h.vars u hu
  exact ⟨_, targets.shown canonical (optionTame_iff.1 tame.2 u hu)⟩

theorem Stmt.Formed.shown {s : Stmt} (h : s.Formed .source) :
    s.isTame = true → (relabelStmt r s).Formed .shown := by
  have block : ∀ {body : List Stmt}, (∀ s ∈ body, s.isTame = true → (relabelStmt r s).Formed .shown) →
      blockTame body = true → ∀ s ∈ relabelBlock r body, s.Formed .shown := by
    intro body ih tame
    rw [relabelBlock_eq]
    exact List.forall_mem_map.2 fun s hs => ih s hs (blockTame_iff.1 tame s hs)
  induction h with
  | functionDef _ hp _ hd hr ihb =>
    intro tame
    simp only [Stmt.isTame, Bool.and_eq_true] at tame
    obtain ⟨⟨⟨params, body⟩, decorators⟩, returns⟩ := tame
    have plain := paramsTame_iff.1 params
    rw [relabelStmt, relabelParams_eq]
    exact .functionDef (binds_relabel canonical _)
      (List.forall_mem_map.2 fun p h => (hp p h).shown canonical (plain p h).1 (plain p h).2)
      (block ihb body) (shown_list canonical hd decorators) (shown_optional canonical hr returns)
  | classDef head _ hd ihb =>
    intro tame
    simp only [Stmt.isTame, Bool.and_eq_true] at tame
    obtain ⟨⟨⟨bases, keywords⟩, body⟩, decorators⟩ := tame
    have call := Expr.Formed.shown canonical head (by simp [Expr.isTame, bases, keywords])
    exact .classDef call (block ihb body) (shown_list canonical hd decorators)
  | ret h => exact fun tame => .ret (shown_optional canonical h tame)
  | delete hh ht =>
    intro tame
    exact .delete (shown_list canonical hh (asTargets_allTame false _ ht ▸ tame)) (asTargets_relabel r _ ht)
  | assign nonempty hh ht hv =>
    intro tame
    simp only [Stmt.isTame, Bool.and_eq_true] at tame
    exact .assign (relabelExprs_ne_nil nonempty)
      (shown_list canonical hh (asTargets_allTame false _ ht ▸ tame.1)) (asTargets_relabel r _ ht)
      (Expr.Formed.shown canonical hv tame.2)
  | augAssign ht hv =>
    intro tame
    simp only [Stmt.isTame, Bool.and_eq_true] at tame
    exact .augAssign (ht.shown canonical tame.1) (Expr.Formed.shown canonical hv tame.2)
  | annAssign ht ha hv =>
    intro tame
    simp only [Stmt.isTame, Bool.and_eq_true] at tame
    exact .annAssign (ht.shown canonical tame.1.1) (Expr.Formed.shown canonical ha tame.1.2)
      (shown_optional canonical hv tame.2)
  | forLoop ht hi _ _ ihb iho =>
    intro tame
    simp only [Stmt.isTame, Bool.and_eq_true] at tame
    exact .forLoop (ht.shown canonical tame.1.1.1) (Expr.Formed.shown canonical hi tame.1.1.2)
      (block ihb tame.1.2) (block iho tame.2)
  | whileLoop ht _ _ ihb iho =>
    intro tame
    simp only [Stmt.isTame, Bool.and_eq_true] at tame
    exact .whileLoop (Expr.Formed.shown canonical ht tame.1.1) (block ihb tame.1.2) (block iho tame.2)
  | branch ht _ _ ihb iho =>
    intro tame
    simp only [Stmt.isTame, Bool.and_eq_true] at tame
    exact .branch (Expr.Formed.shown canonical ht tame.1.1) (block ihb tame.1.2) (block iho tame.2)
  | withBlock hi _ ihb =>
    intro tame
    simp only [Stmt.isTame, Bool.and_eq_true, List.all_eq_true] at tame
    exact .withBlock (List.forall_mem_map.2 fun i h => (hi i h).shown canonical (tame.1 i h))
      (block ihb tame.2)
  | raise he hc =>
    intro tame
    simp only [Stmt.isTame, Bool.and_eq_true] at tame
    exact .raise (shown_optional canonical he tame.1) (shown_optional canonical hc tame.2)
  | tryBlock _ types _ _ _ _ ends guarded ihb ihh iho ihf =>
    intro tame
    simp only [Stmt.isTame, Bool.and_eq_true] at tame
    obtain ⟨⟨⟨body, handlers⟩, orelse⟩, finalbody⟩ := tame
    have plain := handlersTame_iff.1 handlers
    rw [relabelStmt, relabelHandlers_eq]
    exact .tryBlock (block ihb body)
      (List.forall_mem_map.2 fun h hm => shown_optional canonical (types h hm) (plain h hm).1)
      (List.forall_mem_map.2 fun h hm => binds_option canonical)
      (List.forall_mem_map.2 fun h hm => block (ihh h hm) (plain h hm).2) (block iho orelse)
      (block ihf finalbody) (by simpa [relabelBlock_eq] using ends) (by simpa [relabelBlock_eq] using guarded)
  | assert ht hm =>
    intro tame
    simp only [Stmt.isTame, Bool.and_eq_true] at tame
    exact .assert (Expr.Formed.shown canonical ht tame.1) (shown_optional canonical hm tame.2)
  | imports h some => exact fun _ => .imports h some
  | importFrom hm h origin some => exact fun _ => .importFrom hm h origin some
  | global _ some => exact fun _ => .global (binds_names canonical) (by simpa using some)
  | nonlocal _ some => exact fun _ => .nonlocal (binds_names canonical) (by simpa using some)
  | matchBlock hs hp hg _ some alone ihb =>
    intro tame
    simp only [Stmt.isTame, Bool.and_eq_true] at tame
    have plain := casesTame_iff.1 tame.2
    rw [relabelStmt, relabelCases_eq]
    exact .matchBlock (Expr.Formed.shown canonical hs tame.1)
      (List.forall_mem_map.2 fun c hc => (hp c hc).shown canonical (plain c hc).1.1)
      (List.forall_mem_map.2 fun c hc => shown_optional canonical (hg c hc) (plain c hc).1.2)
      (List.forall_mem_map.2 fun c hc => block (ihb c hc) (plain c hc).2) (by simpa using some)
      (List.forall_mem_map.2 fun c hc => (isStar_relabel _).trans (alone c hc))
  | expr h => exact fun tame => .expr (Expr.Formed.shown canonical h tame)
  | pass => exact fun _ => .pass
  | breakLoop => exact fun _ => .breakLoop
  | continueLoop => exact fun _ => .continueLoop

end Shown

end Arbiter.Syntax
