import Arbiter.Proofs.Canon.Outline

/-! An expression can be found from its outline: a call that begins with a bare `yield` is an f-string,
as nothing else in canonical form yields. -/

namespace Arbiter.Syntax

open Function

mutual

/-- The expression of an outline. -/
noncomputable def Expr.retrace : Expr → Expr
  | .name id ctx => .name id ctx
  | .constant c => .constant c
  | .joinedStr parts => .joinedStr parts
  | .attribute value attr ctx => .attribute value.retrace attr ctx
  | .subscript value index ctx => .subscript value.retrace index.retrace ctx
  | .slice lower upper step =>
    .slice (retraceOption lower) (retraceOption upper) (retraceOption step)
  | .starred value ctx => .starred value.retrace ctx
  | .tuple elts ctx => .tuple (retraces elts) ctx
  | .list elts ctx => .list (retraces elts) ctx
  | .set elts => .set (retraces elts)
  | .dict items => .dict (retraceDict items)
  | .binary left op right => .binary left.retrace op right.retrace
  | .unary op operand => .unary op operand.retrace
  | .bool op values => .bool op (retraces values)
  | .compare left rest => .compare left.retrace (retraceComparands rest)
  | .call _ (.yield none :: args) _ => .joinedStr (retraceParts args)
  | .call func args keywords => .call func.retrace (retraces args) (retraceKeywords keywords)
  | .ifElse test body orelse => .ifElse test.retrace body.retrace orelse.retrace
  | .lambda params body => .lambda (retraceParams params) body.retrace
  | .listComp elt generators => .listComp elt.retrace (retraceGenerators generators)
  | .setComp elt generators => .setComp elt.retrace (retraceGenerators generators)
  | .generatorExp elt generators => .generatorExp elt.retrace (retraceGenerators generators)
  | .dictComp key value generators =>
    .dictComp key.retrace value.retrace (retraceGenerators generators)
  | .await value => .await value.retrace
  | .yield value => .yield (retraceOption value)
  | .yieldFrom value => .yieldFrom value.retrace
  | .named target value => .named target.retrace value.retrace

noncomputable def retraces : List Expr → List Expr
  | [] => []
  | e :: es => e.retrace :: retraces es

noncomputable def retraceOption : Option Expr → Option Expr
  | none => none
  | some e => some e.retrace

noncomputable def retraceParts : List Expr → List FStringPart
  | [] => []
  | .name s _ :: rest => .literal s :: retraceParts rest
  | .ifElse (.name conversion _) value (.name spec _) :: rest =>
    .formatted value.retrace (invFun conversionName conversion) (invFun specName spec) ::
      retraceParts rest
  | _ :: rest => retraceParts rest

noncomputable def retraceDict : List DictItem → List DictItem
  | [] => []
  | .entry key value :: rest => .entry key.retrace value.retrace :: retraceDict rest
  | .spread value :: rest => .spread value.retrace :: retraceDict rest

noncomputable def retraceComparands : List Comparand → List Comparand
  | [] => []
  | ⟨op, value⟩ :: rest => ⟨op, value.retrace⟩ :: retraceComparands rest

noncomputable def retraceKeywords : List Keyword → List Keyword
  | [] => []
  | ⟨arg, value⟩ :: rest => ⟨arg, value.retrace⟩ :: retraceKeywords rest

noncomputable def retraceGenerators : List Generator → List Generator
  | [] => []
  | ⟨target, iter, ifs, isAsync⟩ :: rest =>
    ⟨target.retrace, iter.retrace, retraces ifs, isAsync⟩ :: retraceGenerators rest

noncomputable def retraceArgument : Argument → Argument
  | ⟨name, annotation⟩ => ⟨name, retraceOption annotation⟩

noncomputable def retraceParams : List Param → List Param
  | [] => []
  | .plain arg default :: rest =>
    .plain (retraceArgument arg) (retraceOption default) :: retraceParams rest
  | .posOnlyMarker :: rest => .posOnlyMarker :: retraceParams rest
  | .varArgs none :: rest => .varArgs none :: retraceParams rest
  | .varArgs (some arg) :: rest => .varArgs (some (retraceArgument arg)) :: retraceParams rest
  | .kwArgs arg :: rest => .kwArgs (retraceArgument arg) :: retraceParams rest

end

/-! Retracing the outlines of lists, and of targets. -/

theorem retraces_outlines {es : List Expr} (h : ∀ e ∈ es, e.outline.retrace = e) :
    retraces (outlines es) = es := by
  induction es with
  | nil => rfl
  | cons e es ih =>
    rw [outlines, retraces, h e List.mem_cons_self, ih fun x hx => h x (.tail e hx)]

theorem retraceOption_outlineOption {o : Option Expr} (h : ∀ e ∈ o, e.outline.retrace = e) :
    retraceOption (outlineOption o) = o := by
  cases o with
  | none => rfl
  | some e => rw [outlineOption, retraceOption, h e rfl]

theorem retraceParts_outlineParts {parts : List FStringPart}
    (h : ∀ value conversion spec, .formatted value conversion spec ∈ parts →
      value.outline.retrace = value) : retraceParts (outlineParts parts) = parts := by
  induction parts with
  | nil => rfl
  | cons part parts ih =>
    have more := ih fun value conversion spec member => h value conversion spec (.tail part member)
    cases part with
    | literal s => rw [outlineParts, retraceParts, more]
    | formatted value conversion spec =>
      rw [outlineParts, retraceParts, more, h value conversion spec List.mem_cons_self,
        leftInverse_invFun conversionName_injective, leftInverse_invFun specName_injective]

theorem retraceDict_outlineDict {items : List DictItem}
    (h : ∀ item ∈ items, ∀ e ∈ item.parts, e.outline.retrace = e) :
    retraceDict (outlineDict items) = items := by
  induction items with
  | nil => rfl
  | cons item items ih =>
    have more := ih fun x hx => h x (.tail item hx)
    have parts := h item List.mem_cons_self
    cases item with
    | entry key value =>
      rw [outlineDict, retraceDict, more, parts key List.mem_cons_self,
        parts value (.tail key List.mem_cons_self)]
    | spread value => rw [outlineDict, retraceDict, more, parts value List.mem_cons_self]

theorem retraceComparands_outlineComparands {rest : List Comparand}
    (h : ∀ c ∈ rest, c.value.outline.retrace = c.value) :
    retraceComparands (outlineComparands rest) = rest := by
  induction rest with
  | nil => rfl
  | cons c rest ih =>
    have more := ih fun x hx => h x (.tail c hx)
    have value := h c List.mem_cons_self
    obtain ⟨op, e⟩ := c
    rw [outlineComparands, retraceComparands, more, value]

theorem retraceKeywords_outlineKeywords {keywords : List Keyword}
    (h : ∀ k ∈ keywords, k.value.outline.retrace = k.value) :
    retraceKeywords (outlineKeywords keywords) = keywords := by
  induction keywords with
  | nil => rfl
  | cons k keywords ih =>
    have more := ih fun x hx => h x (.tail k hx)
    have value := h k List.mem_cons_self
    obtain ⟨arg, e⟩ := k
    rw [outlineKeywords, retraceKeywords, more, value]

theorem retraceParams_outlineParams {params : List Param} (plain : ∀ p ∈ params, p.IsPlain)
    (h : ∀ p ∈ params, ∀ d ∈ p.default?, d.outline.retrace = d) :
    retraceParams (outlineParams params) = params := by
  induction params with
  | nil => rfl
  | cons p params ih =>
    have more := ih (fun x hx => plain x (.tail p hx)) fun x hx => h x (.tail p hx)
    have default := h p List.mem_cons_self
    have bare := plain p List.mem_cons_self
    match p with
    | .plain ⟨id, annotation⟩ d =>
      obtain ⟨-, rfl⟩ := bare
      rw [outlineParams, retraceParams, more, retraceOption_outlineOption (o := d) default]
      rfl
    | .posOnlyMarker | .varArgs none => rw [outlineParams, retraceParams, more]
    | .varArgs (some ⟨id, annotation⟩) | .kwArgs ⟨id, annotation⟩ =>
      obtain ⟨-, rfl⟩ := bare
      rw [outlineParams, retraceParams, more]
      rfl

/-- A call that is no f-string. -/
theorem retrace_call {func : Expr} {args : List Expr} {keywords : List Keyword}
    (h : ∀ e ∈ args, e ≠ .yield none) : (Expr.call func args keywords).retrace =
      .call func.retrace (retraces args) (retraceKeywords keywords) := by
  rw [Expr.retrace]
  rintro rest rfl
  exact h _ List.mem_cons_self rfl

mutual

theorem asTarget_retrace {ctx : Context} : ∀ (e : Expr) {t : Expr}, e.asTarget? ctx = some t →
    e.retrace.asTarget? ctx = some t.retrace
  | .name .., _, rfl | .attribute .., _, rfl | .subscript .., _, rfl => rfl
  | .starred value _, t, h => by
    obtain ⟨v, found, rfl⟩ := Option.map_eq_some_iff.1 h
    simp only [Expr.retrace, Expr.asTarget?, asTarget_retrace value found, Option.map_some]
  | .tuple elts _, t, h | .list elts _, t, h => by
    obtain ⟨ts, found, rfl⟩ := Option.map_eq_some_iff.1 h
    simp only [Expr.retrace, Expr.asTarget?, asTargets_retrace elts found, Option.map_some]

theorem asTargets_retrace {ctx : Context} : ∀ (es : List Expr) {ts : List Expr},
    asTargets? ctx es = some ts → asTargets? ctx (retraces es) = some (retraces ts)
  | [], _, rfl => rfl
  | e :: es, ts, h => by
    simp only [asTargets?, Option.bind_eq_bind, Option.bind_eq_some_iff, Option.pure_def] at h
    obtain ⟨t, first, ts', rest, same⟩ := h
    cases same
    simp only [retraces, asTargets?, asTarget_retrace e first, asTargets_retrace es rest]
    rfl

end

/-- A target is found from its outline if its expression is. -/
theorem retrace_target {ctx : Context} {e t : Expr} (h : e.asTarget? ctx = some t)
    (found : e.outline.retrace = e) : t.outline.retrace = t := by
  have again := asTarget_retrace _ (asTarget_outline e h)
  rw [found, h] at again
  exact (Option.some.inj again).symm

/-- The part is found from its outline. -/
def Part.IsRetraced : Part → Prop
  | .expr e | .item e | .entry e | .index e => e.outline.retrace = e
  | .clauses gens => retraceGenerators (outlineGenerators gens) = gens

theorem isRetraced_of_regular {l : Leeway} (yields : l.yields = false) {part : Part}
    (h : Regular l part) : part.IsRetraced := by
  induction h with
  | name | number | strings | word | ellipsis => rfl
  | joinedStr _ _ _ _ h =>
    show Expr.joinedStr _ = _
    rw [retraceParts_outlineParts h]
  | member _ _ _ hv => exact congrArg (Expr.attribute · _ _) hv
  | subscript _ _ hv hi => exact congrArg₂ (Expr.subscript · · _) hv hi
  | tuple _ h => exact congrArg (Expr.tuple · _) (retraces_outlines h)
  | list _ h => exact congrArg (Expr.list · _) (retraces_outlines h)
  | set _ _ h => exact congrArg Expr.set (retraces_outlines h)
  | dict _ h => exact congrArg Expr.dict (retraceDict_outlineDict h)
  | binary _ _ hl hr => exact congrArg₂ (Expr.binary · _ ·) hl hr
  | unary _ h => exact congrArg (Expr.unary _) h
  | bool _ _ _ hf hs hr =>
    have values := retraces_outlines (List.forall_mem_cons.2 ⟨hf, List.forall_mem_cons.2 ⟨hs, hr⟩⟩)
    exact congrArg (Expr.bool _) values
  | compare _ _ _ hl hr => exact congrArg₂ Expr.compare hl (retraceComparands_outlineComparands hr)
  | @call func args keywords _ regular _ _ hf ha hk =>
    have noYield : ∀ e ∈ outlines args, e ≠ .yield none := by
      rw [outlines_eq]
      refine List.forall_mem_map.2 fun e member same => ?_
      cases e with
      | yield value =>
        cases regular _ member with
        | item regular =>
          cases regular with
          | yield allowed => exact absurd (yields ▸ allowed) Bool.false_ne_true
      | _ => cases same
    rw [Part.IsRetraced, Expr.outline, retrace_call noYield, retraces_outlines ha,
      retraceKeywords_outlineKeywords hk]
    exact congrArg (Expr.call · _ _) hf
  | ifElse _ _ _ ht hb ho =>
    show Expr.ifElse _ _ _ = _
    exact congr (congrArg₂ Expr.ifElse ht hb) ho
  | lambda plain _ _ defaults hb =>
    exact congrArg₂ Expr.lambda (retraceParams_outlineParams plain defaults) hb
  | listComp _ _ _ he hg => exact congrArg₂ Expr.listComp he hg
  | setComp _ _ _ he hg => exact congrArg₂ Expr.setComp he hg
  | generatorExp _ _ _ he hg => exact congrArg₂ Expr.generatorExp he hg
  | dictComp _ _ _ _ hk hv hg =>
    show Expr.dictComp _ _ _ = _
    exact congr (congrArg₂ Expr.dictComp hk hv) hg
  | await _ h => exact congrArg Expr.await h
  | yield allowed => exact absurd (yields ▸ allowed) Bool.false_ne_true
  | yieldFrom allowed => exact absurd (yields ▸ allowed) Bool.false_ne_true
  | named _ _ _ hv => exact congrArg (Expr.named _) hv
  | strayed _ _ h => exact congrArg (Expr.starred · _) h
  | starred _ h => exact congrArg (Expr.starred · _) h
  | item _ h => exact h
  | slice _ _ _ hl hu hs =>
    show Expr.slice _ _ _ = _
    exact congr (congrArg₂ Expr.slice (retraceOption_outlineOption hl)
      (retraceOption_outlineOption hu)) (retraceOption_outlineOption hs)
  | entry _ h => exact h
  | noEntry => rfl
  | entries _ _ h => exact congrArg (Expr.tuple · _) (retraces_outlines h)
  | index _ _ h => exact h
  | noClause => rfl
  | clause _ ht _ _ _ hh hi hc hg =>
    have clause := congr (congrArg₂ Generator.mk (retrace_target ht hh) hi) (retraces_outlines hc)
    exact congrArg₂ List.cons (congrFun clause _) hg

end Arbiter.Syntax
