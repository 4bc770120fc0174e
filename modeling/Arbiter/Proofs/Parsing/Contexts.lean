import Arbiter.Proofs.Parsing.StmtSound

/-! Contexts of names, members, indices, stars and displays. Main statement: in an accepted program every
target is a target through and through, every other expression is read, and what stands inside of
either carries the context that its own position demands. -/

namespace Arbiter.Syntax

/-- The expression may stand where `ctx` is demanded. Only names, members, indices, stars and displays
can be targets; what stands before a point or in front of or between index brackets is read in any
case. A read expression may hold targets after all: those of a comprehension and of `:=`. -/
inductive Expr.InContext : Context → Expr → Prop
  | name (id : String) (ctx : Context) : InContext ctx (.name id ctx)
  | attribute {ctx : Context} {value : Expr} {attr : String} (hv : InContext .load value) :
    InContext ctx (.attribute value attr ctx)
  | subscript {ctx : Context} {value index : Expr} (hv : InContext .load value)
    (hi : InContext .load index) : InContext ctx (.subscript value index ctx)
  | starred {ctx : Context} {value : Expr} (h : InContext ctx value) : InContext ctx (.starred value ctx)
  | tuple {ctx : Context} {elts : List Expr} (h : ∀ e ∈ elts, InContext ctx e) :
    InContext ctx (.tuple elts ctx)
  | list {ctx : Context} {elts : List Expr} (h : ∀ e ∈ elts, InContext ctx e) :
    InContext ctx (.list elts ctx)
  | constant (c : Constant) : InContext .load (.constant c)
  | joinedStr {parts : List FStringPart} (h : ∀ value conversion spec,
    .formatted value conversion spec ∈ parts → InContext .load value) : InContext .load (.joinedStr parts)
  | slice {lower upper step : Option Expr} (hl : ∀ e ∈ lower, InContext .load e)
    (hu : ∀ e ∈ upper, InContext .load e) (hs : ∀ e ∈ step, InContext .load e) :
    InContext .load (.slice lower upper step)
  | set {elts : List Expr} (h : ∀ e ∈ elts, InContext .load e) : InContext .load (.set elts)
  | dict {items : List DictItem} (h : ∀ item ∈ items, ∀ e ∈ item.parts, InContext .load e) :
    InContext .load (.dict items)
  | binary {left right : Expr} {o : BinaryOp} (hl : InContext .load left) (hr : InContext .load right) :
    InContext .load (.binary left o right)
  | unary {operand : Expr} {o : UnaryOp} (h : InContext .load operand) : InContext .load (.unary o operand)
  | bool {o : BoolOp} {values : List Expr} (h : ∀ e ∈ values, InContext .load e) :
    InContext .load (.bool o values)
  | compare {left : Expr} {rest : List Comparand} (hl : InContext .load left)
    (hr : ∀ c ∈ rest, InContext .load c.value) : InContext .load (.compare left rest)
  | call {func : Expr} {args : List Expr} {keywords : List Keyword} (hf : InContext .load func)
    (ha : ∀ e ∈ args, InContext .load e) (hk : ∀ k ∈ keywords, InContext .load k.value) :
    InContext .load (.call func args keywords)
  | ifElse {test body orelse : Expr} (ht : InContext .load test) (hb : InContext .load body)
    (ho : InContext .load orelse) : InContext .load (.ifElse test body orelse)
  | lambda {params : List Param} {body : Expr} (annotations : ∀ p ∈ params, ∀ e ∈ p.annotation?, InContext .load e)
    (defaults : ∀ p ∈ params, ∀ e ∈ p.default?, InContext .load e) (hb : InContext .load body) :
    InContext .load (.lambda params body)
  | listComp {elt : Expr} {gens : List Generator} (he : InContext .load elt)
    (targets : ∀ g ∈ gens, InContext .store g.target) (iters : ∀ g ∈ gens, InContext .load g.iter)
    (ifs : ∀ g ∈ gens, ∀ e ∈ g.ifs, InContext .load e) : InContext .load (.listComp elt gens)
  | setComp {elt : Expr} {gens : List Generator} (he : InContext .load elt)
    (targets : ∀ g ∈ gens, InContext .store g.target) (iters : ∀ g ∈ gens, InContext .load g.iter)
    (ifs : ∀ g ∈ gens, ∀ e ∈ g.ifs, InContext .load e) : InContext .load (.setComp elt gens)
  | generatorExp {elt : Expr} {gens : List Generator} (he : InContext .load elt)
    (targets : ∀ g ∈ gens, InContext .store g.target) (iters : ∀ g ∈ gens, InContext .load g.iter)
    (ifs : ∀ g ∈ gens, ∀ e ∈ g.ifs, InContext .load e) : InContext .load (.generatorExp elt gens)
  | dictComp {key value : Expr} {gens : List Generator} (hk : InContext .load key)
    (hv : InContext .load value) (targets : ∀ g ∈ gens, InContext .store g.target)
    (iters : ∀ g ∈ gens, InContext .load g.iter) (ifs : ∀ g ∈ gens, ∀ e ∈ g.ifs, InContext .load e) :
    InContext .load (.dictComp key value gens)
  | await {value : Expr} (h : InContext .load value) : InContext .load (.await value)
  | yield {value : Option Expr} (h : ∀ e ∈ value, InContext .load e) : InContext .load (.yield value)
  | yieldFrom {value : Expr} (h : InContext .load value) : InContext .load (.yieldFrom value)
  | named {target value : Expr} (ht : InContext .store target) (hv : InContext .load value) :
    InContext .load (.named target value)

/-! Expressions. -/

mutual

/-- A read expression that is made a target takes the new context wherever it is due. -/
theorem Expr.InContext.asTarget {ctx : Context} : ∀ {e t : Expr}, e.InContext .load →
    e.asTarget? ctx = some t → t.InContext ctx
  | .name id _, _, _, rfl => .name id ctx
  | .attribute .., _, .attribute hv, rfl => .attribute hv
  | .subscript .., _, .subscript hv hi, rfl => .subscript hv hi
  | .starred value _, _, .starred hv, found => by
    obtain ⟨v, inner, rfl⟩ := Option.map_eq_some_iff.1 found
    exact .starred (hv.asTarget inner)
  | .tuple elts _, _, .tuple h, found => by
    obtain ⟨ts, inner, rfl⟩ := Option.map_eq_some_iff.1 found
    exact .tuple (inContext_of_asTargets h inner)
  | .list elts _, _, .list h, found => by
    obtain ⟨ts, inner, rfl⟩ := Option.map_eq_some_iff.1 found
    exact .list (inContext_of_asTargets h inner)

theorem inContext_of_asTargets {ctx : Context} : ∀ {es ts : List Expr}, (∀ e ∈ es, e.InContext .load) →
    asTargets? ctx es = some ts → ∀ t ∈ ts, t.InContext ctx
  | [], _, _, rfl => by simp
  | e :: es, ts, h, found => by
    simp only [asTargets?, Option.bind_eq_bind, Option.bind_eq_some_iff, Option.pure_def] at found
    obtain ⟨t, first, ts', rest, same⟩ := found
    cases same
    refine List.forall_mem_cons.2 ⟨?_, ?_⟩
    · exact Expr.InContext.asTarget (h e List.mem_cons_self) first
    · exact inContext_of_asTargets (fun e he => h e (.tail _ he)) rest

end

/-- The part stands where it is read. -/
def Part.IsRead : Part → Prop
  | .expr e | .item e | .entry e | .index e => e.InContext .load
  | .clauses gens => (∀ g ∈ gens, g.target.InContext .store) ∧ (∀ g ∈ gens, g.iter.InContext .load) ∧
    ∀ g ∈ gens, ∀ e ∈ g.ifs, e.InContext .load

theorem isRead_of_regular {l : Leeway} {part : Part} (h : Regular l part) : part.IsRead := by
  induction h with
  | name => exact .name _ .load
  | number | strings | word | ellipsis => exact .constant _
  | joinedStr _ _ _ _ values => exact .joinedStr values
  | member _ _ _ hv => exact .attribute hv
  | subscript _ _ hv hi => exact .subscript hv hi
  | tuple _ h => exact .tuple h
  | list _ h => exact .list h
  | set _ _ h => exact .set h
  | dict _ h => exact .dict h
  | binary _ _ hl hr => exact .binary hl hr
  | unary _ h => exact .unary h
  | bool _ _ _ hf hs hr => exact .bool (List.forall_mem_cons.2 ⟨hf, List.forall_mem_cons.2 ⟨hs, hr⟩⟩)
  | compare _ _ _ hl hr => exact .compare hl hr
  | call _ _ _ _ hf ha hk => exact .call hf ha hk
  | ifElse _ _ _ ht hb ho => exact .ifElse ht hb ho
  | lambda plain _ _ defaults hb =>
    exact .lambda (fun p hp e he => by simp [Param.IsPlain.annotation? (plain p hp)] at he) defaults hb
  | listComp _ _ _ he hg => exact .listComp he hg.1 hg.2.1 hg.2.2
  | setComp _ _ _ he hg => exact .setComp he hg.1 hg.2.1 hg.2.2
  | generatorExp _ _ _ he hg => exact .generatorExp he hg.1 hg.2.1 hg.2.2
  | dictComp _ _ _ _ hk hv hg => exact .dictComp hk hv hg.1 hg.2.1 hg.2.2
  | await _ h => exact .await h
  | yield _ _ h => exact .yield h
  | yieldFrom _ _ h => exact .yieldFrom h
  | named _ _ _ hv => exact .named (.name _ .store) hv
  | strayed _ _ h | starred _ h => exact .starred h
  | item _ h | entry _ h | index _ _ h => exact h
  | slice _ _ _ hl hu hs => exact .slice hl hu hs
  | noEntry => exact .tuple (by simp)
  | entries _ _ h => exact .tuple h
  | noClause => exact ⟨by simp, by simp, by simp⟩
  | clause _ ht _ _ _ hh hi hc hg =>
    exact ⟨List.forall_mem_cons.2 ⟨Expr.InContext.asTarget hh ht, hg.1⟩,
      List.forall_mem_cons.2 ⟨hi, hg.2.1⟩, List.forall_mem_cons.2 ⟨hc, hg.2.2⟩⟩

theorem Targets.inContext {l : Leeway} {ctx : Context} {head target : Expr} (h : Targets l ctx head target) :
    target.InContext ctx :=
  Expr.InContext.asTarget (isRead_of_regular h.regular) h.same

/-! Patterns. -/

mutual

/-- The expressions in a pattern: values, keys and classes. -/
def Pattern.exprs : Pattern → List Expr
  | .value e => [e]
  | .singleton _ | .star _ | .wildcard | .capture _ => []
  | .sequence patterns | .or patterns => patternExprs patterns
  | .mapping items _ => mappingExprs items
  | .cls head patterns keywords => head :: (patternExprs patterns ++ keywordExprs keywords)
  | .bind pattern _ => pattern.exprs

def patternExprs : List Pattern → List Expr
  | [] => []
  | p :: ps => p.exprs ++ patternExprs ps

def mappingExprs : List MappingItem → List Expr
  | [] => []
  | ⟨key, pattern⟩ :: rest => key :: (pattern.exprs ++ mappingExprs rest)

def keywordExprs : List KeywordPattern → List Expr
  | [] => []
  | ⟨_, pattern⟩ :: rest => pattern.exprs ++ keywordExprs rest

end

section

variable {P : Expr → Prop}

theorem forall_patternExprs {ps : List Pattern} :
    (∀ e ∈ patternExprs ps, P e) ↔ ∀ p ∈ ps, ∀ e ∈ p.exprs, P e := by
  induction ps with
  | nil => simp [patternExprs]
  | cons p ps ih => simp only [patternExprs, List.forall_mem_append, ih, List.forall_mem_cons]

theorem forall_mappingExprs {items : List MappingItem} :
    (∀ e ∈ mappingExprs items, P e) ↔ ∀ i ∈ items, P i.key ∧ ∀ e ∈ i.pattern.exprs, P e := by
  induction items with
  | nil => simp [mappingExprs]
  | cons item rest ih =>
    obtain ⟨key, pattern⟩ := item
    simp only [mappingExprs, List.forall_mem_append, ih, List.forall_mem_cons, and_assoc]

theorem forall_keywordExprs {keywords : List KeywordPattern} :
    (∀ e ∈ keywordExprs keywords, P e) ↔ ∀ k ∈ keywords, ∀ e ∈ k.pattern.exprs, P e := by
  induction keywords with
  | nil => simp [keywordExprs]
  | cons k rest ih =>
    obtain ⟨attr, pattern⟩ := k
    simp only [keywordExprs, List.forall_mem_append, ih, List.forall_mem_cons]

end

theorem Pattern.Formed.isRead {l : Leeway} {p : Pattern} (h : p.Formed l) :
    ∀ e ∈ p.exprs, e.InContext .load := by
  induction h with
  | value h => exact List.forall_mem_singleton.2 (isRead_of_regular h)
  | dotted h => exact List.forall_mem_singleton.2 (isRead_of_regular h)
  | singleton | star | wildcard | capture => simp [Pattern.exprs]
  | sequence _ h => exact forall_patternExprs.2 h
  | mapping keys _ _ _ h => exact forall_mappingExprs.2 fun i hi => ⟨isRead_of_regular (keys i hi), h i hi⟩
  | cls head _ _ _ _ _ hp hk =>
    refine List.forall_mem_cons.2 ⟨isRead_of_regular head, ?_⟩
    exact List.forall_mem_append.2 ⟨forall_patternExprs.2 hp, forall_keywordExprs.2 hk⟩
  | bind _ _ _ h => exact h
  | or _ _ _ _ hf hs hr =>
    exact forall_patternExprs.2 (List.forall_mem_cons.2 ⟨hf, List.forall_mem_cons.2 ⟨hs, hr⟩⟩)

/-! Statements. -/

/-- An expression with the context that its position demands. -/
abbrev Place := Context × Expr

/-- Each expression where it is read. -/
def reads (es : List Expr) : List Place := es.map (.load, ·)

/-- Each expression where it is bound. -/
def stores (es : List Expr) : List Place := es.map (.store, ·)

/-- The annotations and defaults of parameters. -/
def paramReads (params : List Param) : List Place :=
  reads (params.flatMap fun p => p.annotation?.toList ++ p.default?.toList)

mutual

/-- The expressions of a statement, those of its blocks included, each with the context that its
position demands. -/
def Stmt.places : Stmt → List Place
  | .functionDef _ params body decorators returns _ =>
    reads decorators ++ paramReads params ++ reads returns.toList ++ blockPlaces body
  | .classDef _ bases keywords body decorators =>
    reads decorators ++ reads bases ++ reads (keywords.map (·.value)) ++ blockPlaces body
  | .ret value => reads value.toList
  | .delete targets => targets.map (.del, ·)
  | .assign targets value => stores targets ++ reads [value]
  | .augAssign target _ value => stores [target] ++ reads [value]
  | .annAssign target type value => stores [target] ++ reads [type] ++ reads value.toList
  | .forLoop target iter body orelse _ =>
    stores [target] ++ reads [iter] ++ blockPlaces body ++ blockPlaces orelse
  | .whileLoop test body orelse | .branch test body orelse =>
    reads [test] ++ blockPlaces body ++ blockPlaces orelse
  | .withBlock items body _ =>
    reads (items.map (·.context)) ++ stores (items.flatMap (·.vars.toList)) ++ blockPlaces body
  | .raise exc cause => reads exc.toList ++ reads cause.toList
  | .tryBlock body handlers orelse finalbody =>
    blockPlaces body ++ handlerPlaces handlers ++ blockPlaces orelse ++ blockPlaces finalbody
  | .assert test msg => reads [test] ++ reads msg.toList
  | .matchBlock subject cases => reads [subject] ++ casePlaces cases
  | .expr value => reads [value]
  | .imports _ | .importFrom _ _ _ | .global _ | .nonlocal _ | .pass | .breakLoop | .continueLoop => []

def blockPlaces : List Stmt → List Place
  | [] => []
  | s :: rest => s.places ++ blockPlaces rest

def handlerPlaces : List Handler → List Place
  | [] => []
  | ⟨type, _, body⟩ :: rest => reads type.toList ++ blockPlaces body ++ handlerPlaces rest

def casePlaces : List MatchCase → List Place
  | [] => []
  | ⟨pattern, guard, body⟩ :: rest =>
    reads pattern.exprs ++ reads guard.toList ++ blockPlaces body ++ casePlaces rest

end

/-- Every expression has the context that its position demands. -/
def AllInContext (places : List Place) : Prop := ∀ place ∈ places, place.2.InContext place.1

namespace AllInContext

variable {places more : List Place} {es : List Expr}

theorem append (h : AllInContext places) (hm : AllInContext more) : AllInContext (places ++ more) :=
  List.forall_mem_append.2 ⟨h, hm⟩

theorem map {ctx : Context} (h : ∀ e ∈ es, e.InContext ctx) : AllInContext (es.map (ctx, ·)) :=
  List.forall_mem_map.2 h

theorem reads {l : Leeway} (h : ∀ e ∈ es, Regular l (.expr e)) : AllInContext (reads es) :=
  map fun e he => isRead_of_regular (h e he)

theorem read {l : Leeway} {e : Expr} (h : Regular l (.expr e)) : AllInContext (Syntax.reads [e]) :=
  reads (List.forall_mem_singleton.2 h)

theorem readOption {l : Leeway} {value : Option Expr} (h : ∀ e ∈ value, Regular l (.expr e)) :
    AllInContext (Syntax.reads value.toList) :=
  reads fun e he => h e (Option.mem_toList.1 he)

theorem store {l : Leeway} {head target : Expr} (h : Targets l .store head target) :
    AllInContext (stores [target]) :=
  map (List.forall_mem_singleton.2 h.inContext)

theorem params {l : Leeway} {ps : List Param} (h : ∀ p ∈ ps, p.Formed l) : AllInContext (paramReads ps) := by
  refine reads (l := l) fun e he => ?_
  obtain ⟨p, hp, he⟩ := List.mem_flatMap.1 he
  rcases List.mem_append.1 he with annotation | default
  · exact Param.Formed.annotation (h p hp) e (Option.mem_toList.1 annotation)
  · exact (h p hp).default e (Option.mem_toList.1 default)

theorem withItems {l : Leeway} {items : List WithItem} (h : ∀ i ∈ items, i.Formed l) :
    AllInContext (Syntax.reads (items.map (·.context)) ++ stores (items.flatMap (·.vars.toList))) := by
  refine append (reads (List.forall_mem_map.2 fun i hi => (h i hi).context)) (map fun t ht => ?_)
  obtain ⟨i, hi, ht⟩ := List.mem_flatMap.1 ht
  obtain ⟨head, target⟩ := (h i hi).vars t (Option.mem_toList.1 ht)
  exact target.inContext

theorem block {body : List Stmt} (h : ∀ s ∈ body, AllInContext s.places) : AllInContext (blockPlaces body) := by
  induction body with
  | nil => nofun
  | cons s rest ih => exact append (h s List.mem_cons_self) (ih fun s hs => h s (.tail _ hs))

theorem handlers {l : Leeway} {handlers : List Handler} (types : ∀ h ∈ handlers, ∀ e ∈ h.type, Regular l (.expr e))
    (bodies : ∀ h ∈ handlers, ∀ s ∈ h.body, AllInContext s.places) : AllInContext (handlerPlaces handlers) := by
  induction handlers with
  | nil => nofun
  | cons h rest ih =>
    obtain ⟨type, name, body⟩ := h
    have head := readOption (types _ List.mem_cons_self)
    refine append (append head (block (bodies _ List.mem_cons_self))) ?_
    exact ih (fun h hh => types h (.tail _ hh)) fun h hh => bodies h (.tail _ hh)

theorem cases {l : Leeway} {cases : List MatchCase} (patterns : ∀ c ∈ cases, c.pattern.Formed l)
    (guards : ∀ c ∈ cases, ∀ e ∈ c.guard, Regular l (.expr e))
    (bodies : ∀ c ∈ cases, ∀ s ∈ c.body, AllInContext s.places) : AllInContext (casePlaces cases) := by
  induction cases with
  | nil => nofun
  | cons c rest ih =>
    obtain ⟨pattern, guard, body⟩ := c
    have head := append (map (patterns _ List.mem_cons_self).isRead) (readOption (guards _ List.mem_cons_self))
    refine append (append head (block (bodies _ List.mem_cons_self))) ?_
    exact ih (fun c hc => patterns c (.tail _ hc)) (fun c hc => guards c (.tail _ hc))
      fun c hc => bodies c (.tail _ hc)

end AllInContext

theorem Stmt.Formed.allInContext {l : Leeway} {s : Stmt} (h : s.Formed l) : AllInContext s.places := by
  induction h with
  | functionDef _ hp _ hd hr hb =>
    exact (((AllInContext.reads hd).append (.params hp)).append (.readOption hr)).append (.block hb)
  | classDef head _ hd hb =>
    cases head with
    | call _ ha hk _ =>
      have bases := AllInContext.map fun e he => isRead_of_regular (ha e he)
      have keywords := AllInContext.reads (List.forall_mem_map.2 hk)
      exact (((AllInContext.reads hd).append bases).append keywords).append (.block hb)
  | ret h => exact .readOption h
  | delete hh ht => exact .map (inContext_of_asTargets (fun e he => isRead_of_regular (hh e he)) ht)
  | assign _ hh ht hv =>
    have targets := inContext_of_asTargets (fun e he => isRead_of_regular (hh e he)) ht
    exact (AllInContext.map targets).append (.read hv)
  | augAssign ht hv => exact (AllInContext.store ht).append (.read hv)
  | annAssign ht ha hv => exact ((AllInContext.store ht).append (.read ha)).append (.readOption hv)
  | forLoop ht hi _ _ hb ho =>
    exact (((AllInContext.store ht).append (.read hi)).append (.block hb)).append (.block ho)
  | whileLoop ht _ _ hb ho | branch ht _ _ hb ho =>
    exact ((AllInContext.read ht).append (.block hb)).append (.block ho)
  | withBlock hi _ hb => exact (AllInContext.withItems hi).append (.block hb)
  | raise he hc => exact (AllInContext.readOption he).append (.readOption hc)
  | tryBlock _ types _ _ _ _ _ _ hb hh ho hf =>
    exact (((AllInContext.block hb).append (.handlers types hh)).append (.block ho)).append (.block hf)
  | assert ht hm => exact (AllInContext.read ht).append (.readOption hm)
  | imports | importFrom | global | nonlocal | pass | breakLoop | continueLoop => nofun
  | matchBlock hs hp hg _ _ _ hb => exact (AllInContext.read hs).append (.cases hp hg hb)
  | expr h => exact .read h

/-- In an accepted program the targets of assignments, of `for`, `with`, comprehensions and `:=` are
bound and those of `del` deleted, in all their parts that are targets, and everything else is read. -/
theorem contexts_of_parseProgram {source : String} {body : List Stmt} (h : parseProgram source = .ok body) :
    ∀ place ∈ blockPlaces body, place.2.InContext place.1 :=
  AllInContext.block fun s hs => (formed_of_parseProgram h s hs).allInContext

theorem contexts_of_parseProgram_loop : ∃ body,
    parseProgram "for a, *b[i] in (c := d):\n    del e.f, g\n" = .ok body ∧
      (blockPlaces body).map (·.1) = [.store, .load, .del, .del] ∧
      ∀ place ∈ blockPlaces body, place.2.InContext place.1 := by
  have known : ((parseProgram "for a, *b[i] in (c := d):\n    del e.f, g\n").toOption.map fun body =>
      (blockPlaces body).map (·.1)) = some [.store, .load, .del, .del] := by decide +kernel
  cases read : parseProgram "for a, *b[i] in (c := d):\n    del e.f, g\n" with
  | error fault =>
    rw [read] at known
    cases known
  | ok body =>
    rw [read] at known
    exact ⟨body, rfl, Option.some.inj known, contexts_of_parseProgram read⟩

end Arbiter.Syntax
