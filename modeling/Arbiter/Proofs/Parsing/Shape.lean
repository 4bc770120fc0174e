import Arbiter.Proofs.Parsing.StmtSound

/-! The shape of accepted programs. Every node of a tree has to keep a rule of its own: lists that belong
together are of one length, what cannot be empty is not, slices and stars stand where they may, and a
name is never a keyword. Main statement: in an accepted program every node does. -/

namespace Arbiter.Syntax

/-! Expressions. -/

/-- Where an expression stands. -/
inductive Slot
  | operand
  /-- Between the brackets of a subscript. -/
  | index
  /-- In the tuple that is an index. -/
  | entry
deriving DecidableEq

/-- Where the elements of a tuple stand. -/
def Slot.element : Slot → Slot
  | .index => .entry
  | .operand | .entry => .operand

/-- The key of an entry; a spread has none. -/
def DictItem.key? : DictItem → Option Expr
  | .entry key _ => some key
  | .spread _ => none

def DictItem.value : DictItem → Expr
  | .entry _ value | .spread value => value

def Param.exprs (p : Param) : List Expr := p.annotation?.toList ++ p.default?.toList

def Generator.exprs (g : Generator) : List Expr := g.target :: g.iter :: g.ifs

def FStringPart.value? : FStringPart → Option Expr
  | .literal _ => none
  | .formatted value _ _ => some value

/-- Expressions that stand as operands. -/
def operands (es : List Expr) : List (Slot × Expr) := es.map (.operand, ·)

/-- The expressions right inside of one at `slot`, and where they stand. -/
def Expr.inner (slot : Slot) : Expr → List (Slot × Expr)
  | .name _ _ | .constant _ => []
  | .joinedStr parts => operands (parts.filterMap (·.value?))
  | .attribute value _ _ | .starred value _ | .unary _ value | .await value | .yieldFrom value =>
    operands [value]
  | .subscript value index _ => [(.operand, value), (.index, index)]
  | .slice lower upper step => operands (lower.toList ++ upper.toList ++ step.toList)
  | .tuple elts _ => elts.map (slot.element, ·)
  | .list elts _ | .set elts | .bool _ elts => operands elts
  | .dict items => operands (items.flatMap (·.parts))
  | .binary left _ right => operands [left, right]
  | .compare left rest => operands (left :: rest.map (·.value))
  | .call func args keywords => operands (func :: (args ++ keywords.map (·.value)))
  | .ifElse test body orelse => operands [test, body, orelse]
  | .lambda params body => operands (body :: params.flatMap (·.exprs))
  | .listComp elt gens | .setComp elt gens | .generatorExp elt gens =>
    operands (elt :: gens.flatMap (·.exprs))
  | .dictComp key value gens => operands (key :: value :: gens.flatMap (·.exprs))
  | .yield value => operands value.toList
  | .named target value => operands [target, value]

/-- The names that the expression itself writes. -/
def Expr.ownNames : Expr → List String
  | .name id _ => [id]
  | .attribute _ attr _ => [attr]
  | .call _ _ keywords => keywords.filterMap (·.arg)
  | .lambda params _ => params.filterMap (·.name?)
  | _ => []

/-- The rule for an expression at `slot`. -/
def Expr.Fits (slot : Slot) : Expr → Prop
  | .slice _ _ _ => slot ≠ .operand
  | .joinedStr parts => AreApart parts
  | .dict items => (items.map (·.key?)).length = (items.map (·.value)).length
  | .bool _ values => 2 ≤ values.length
  | .compare _ rest => (rest.map (·.op)).length = (rest.map (·.value)).length ∧ rest ≠ []
  | _ => True

/-- The expression and all inside of it, the fields of f-strings included, keep their rules. -/
inductive Expr.Shaped : Slot → Expr → Prop
  | intro {slot : Slot} {e : Expr} (fits : e.Fits slot) (names : ∀ id ∈ e.ownNames, IsIdentifier id)
    (inner : ∀ x ∈ e.inner slot, Shaped x.1 x.2) : Shaped slot e

theorem forall_operands {es : List Expr} :
    (∀ x ∈ operands es, x.2.Shaped x.1) ↔ ∀ e ∈ es, e.Shaped .operand := List.forall_mem_map

/-- What is no tuple may be an index if it may be an entry of one. -/
theorem Expr.Shaped.index {e : Expr} (single : ∀ elts ctx, e ≠ .tuple elts ctx) (h : e.Shaped .entry) :
    e.Shaped .index := by
  obtain ⟨fits, names, inner⟩ := h
  cases e with
  | tuple elts ctx => exact absurd rfl (single elts ctx)
  | slice => exact ⟨Slot.noConfusion, names, inner⟩
  | _ => exact ⟨fits, names, inner⟩

mutual

theorem Expr.Shaped.asTarget {ctx : Context} {slot : Slot} : ∀ {e t : Expr}, e.Shaped slot →
    e.asTarget? ctx = some t → t.Shaped slot
  | .name .., _, ⟨fits, names, inner⟩, rfl | .attribute .., _, ⟨fits, names, inner⟩, rfl
  | .subscript .., _, ⟨fits, names, inner⟩, rfl => ⟨fits, names, inner⟩
  | .starred value _, _, ⟨fits, names, inner⟩, found => by
    obtain ⟨v, target, rfl⟩ := Option.map_eq_some_iff.1 found
    have value : value.Shaped .operand := inner _ List.mem_cons_self
    exact ⟨fits, names, forall_operands.2 (List.forall_mem_singleton.2 (value.asTarget target))⟩
  | .tuple elts _, _, ⟨fits, names, inner⟩, found => by
    obtain ⟨ts, targets, rfl⟩ := Option.map_eq_some_iff.1 found
    have elements : ∀ e ∈ elts, e.Shaped slot.element := fun e he => inner _ (List.mem_map_of_mem he)
    exact ⟨fits, names, List.forall_mem_map.2 (shaped_of_asTargets elements targets)⟩
  | .list elts _, _, ⟨fits, names, inner⟩, found => by
    obtain ⟨ts, targets, rfl⟩ := Option.map_eq_some_iff.1 found
    have elements := shaped_of_asTargets (forall_operands.1 inner) targets
    exact ⟨fits, names, forall_operands.2 elements⟩

theorem shaped_of_asTargets {ctx : Context} {slot : Slot} : ∀ {es ts : List Expr},
    (∀ e ∈ es, e.Shaped slot) → asTargets? ctx es = some ts → ∀ t ∈ ts, t.Shaped slot
  | [], _, _, rfl => by simp
  | e :: es, ts, h, found => by
    simp only [asTargets?, Option.bind_eq_bind, Option.bind_eq_some_iff, Option.pure_def] at found
    obtain ⟨t, first, ts', rest, same⟩ := found
    cases same
    refine List.forall_mem_cons.2 ⟨?_, ?_⟩
    · exact Expr.Shaped.asTarget (h e List.mem_cons_self) first
    · exact shaped_of_asTargets (fun e he => h e (.tail _ he)) rest

end

/-- The part keeps its rules wherever it may stand. -/
def Part.IsShaped : Part → Prop
  | .expr e | .item e => ∀ slot, e.Shaped slot
  | .entry e => e.Shaped .entry
  | .index e => e.Shaped .index
  | .clauses gens => ∀ e ∈ gens.flatMap (·.exprs), e.Shaped .operand

theorem isShaped_of_regular {part : Part} (h : Regular .source part) : part.IsShaped := by
  have leaf : ∀ c slot, (Expr.constant c).Shaped slot := fun _ _ => ⟨trivial, nofun, nofun⟩
  induction h with
  | name h _ => exact fun slot => ⟨trivial, List.forall_mem_singleton.2 h, nofun⟩
  | number | strings | word | ellipsis => exact leaf _
  | joinedStr apart _ _ _ values =>
    refine fun slot => ⟨apart, nofun, forall_operands.2 fun e he => ?_⟩
    obtain ⟨part, member, found⟩ := List.mem_filterMap.1 he
    cases part <;> cases found
    exact values _ _ _ member .operand
  | member _ _ ha hv =>
    exact fun slot => ⟨trivial, List.forall_mem_singleton.2 ha,
      forall_operands.2 (List.forall_mem_singleton.2 (hv .operand))⟩
  | subscript _ _ hv hi =>
    exact fun slot => ⟨trivial, nofun, List.forall_mem_cons.2 ⟨hv .operand, List.forall_mem_singleton.2 hi⟩⟩
  | tuple _ h => exact fun slot => ⟨trivial, nofun, List.forall_mem_map.2 fun e he => h e he slot.element⟩
  | list _ h => exact fun slot => ⟨trivial, nofun, forall_operands.2 fun e he => h e he .operand⟩
  | set _ _ h => exact fun slot => ⟨trivial, nofun, forall_operands.2 fun e he => h e he .operand⟩
  | dict _ h =>
    refine fun slot => ⟨by simp [Expr.Fits], nofun, forall_operands.2 fun e he => ?_⟩
    obtain ⟨item, member, he⟩ := List.mem_flatMap.1 he
    exact h item member e he .operand
  | binary _ _ hl hr =>
    exact fun slot => ⟨trivial, nofun, forall_operands.2 (by simp [hl .operand, hr .operand])⟩
  | unary _ h | await _ h | yieldFrom _ _ h | strayed _ _ h | starred _ h =>
    exact fun slot => ⟨trivial, nofun, forall_operands.2 (by simp [h .operand])⟩
  | bool _ _ _ hf hs hr =>
    refine fun slot => ⟨by simp [Expr.Fits], nofun, forall_operands.2 ?_⟩
    exact List.forall_mem_cons.2 ⟨hf .operand, List.forall_mem_cons.2 ⟨hs .operand, fun e he => hr e he .operand⟩⟩
  | compare some _ _ hl hr =>
    refine fun slot => ⟨⟨by simp, some⟩, nofun, forall_operands.2 (List.forall_mem_cons.2 ⟨hl .operand, ?_⟩)⟩
    exact List.forall_mem_map.2 fun c hc => hr c hc .operand
  | call _ _ _ names hf ha hk =>
    refine fun slot => ⟨trivial, fun id hid => ?_, forall_operands.2 ?_⟩
    · obtain ⟨k, member, found⟩ := List.mem_filterMap.1 hid
      exact names k member id found
    · refine List.forall_mem_cons.2 ⟨hf .operand, List.forall_mem_append.2 ⟨?_, ?_⟩⟩
      · exact fun e he => ha e he .operand
      · exact List.forall_mem_map.2 fun k hk' => hk k hk' .operand
  | ifElse _ _ _ ht hb ho =>
    exact fun slot => ⟨trivial, nofun, forall_operands.2 (by simp [ht .operand, hb .operand, ho .operand])⟩
  | lambda plain _ _ defaults hb =>
    refine fun slot => ⟨trivial, fun id hid => ?_, forall_operands.2 (List.forall_mem_cons.2 ⟨hb .operand, ?_⟩)⟩
    · obtain ⟨p, member, found⟩ := List.mem_filterMap.1 hid
      exact (plain p member).isIdentifier id found
    · intro e he
      obtain ⟨p, member, he⟩ := List.mem_flatMap.1 he
      rw [Param.exprs, (plain p member).annotation?, Option.toList_none, List.nil_append] at he
      exact defaults p member e (Option.mem_toList.1 he) .operand
  | listComp _ _ _ he hg | setComp _ _ _ he hg | generatorExp _ _ _ he hg =>
    exact fun slot => ⟨trivial, nofun, forall_operands.2 (List.forall_mem_cons.2 ⟨he .operand, hg⟩)⟩
  | dictComp _ _ _ _ hk hv hg =>
    refine fun slot => ⟨trivial, nofun, forall_operands.2 ?_⟩
    exact List.forall_mem_cons.2 ⟨hk .operand, List.forall_mem_cons.2 ⟨hv .operand, hg⟩⟩
  | yield _ _ h =>
    exact fun slot => ⟨trivial, nofun, forall_operands.2 fun e he => h e (Option.mem_toList.1 he) .operand⟩
  | named hi _ _ hv =>
    have target : ∀ slot, (Expr.name _ .store).Shaped slot := fun _ =>
      ⟨trivial, List.forall_mem_singleton.2 hi, nofun⟩
    exact fun slot => ⟨trivial, nofun, forall_operands.2 (by simp [target .operand, hv .operand])⟩
  | item _ h => exact h
  | slice _ _ _ hl hu hs =>
    refine ⟨Slot.noConfusion, nofun, forall_operands.2 fun e he => ?_⟩
    simp only [List.mem_append, Option.mem_toList] at he
    rcases he with (he | he) | he
    · exact hl e he .operand
    · exact hu e he .operand
    · exact hs e he .operand
  | entry _ h => exact h .entry
  | noEntry => exact ⟨trivial, nofun, nofun⟩
  | entries _ _ h => exact ⟨trivial, nofun, List.forall_mem_map.2 h⟩
  | index single _ h => exact h.index single
  | noClause => exact nofun
  | clause _ ht _ _ _ hh hi hc hg =>
    refine List.forall_mem_append.2 ⟨?_, hg⟩
    exact List.forall_mem_cons.2 ⟨(hh .operand).asTarget ht,
      List.forall_mem_cons.2 ⟨hi .operand, fun e he => hc e he .operand⟩⟩

theorem Expr.Formed.shaped {e : Expr} (h : e.Formed) : e.Shaped .operand :=
  isShaped_of_regular h .operand

theorem Targets.shaped {ctx : Context} {head target : Expr} (h : Targets .source ctx head target) :
    target.Shaped .operand := (Expr.Formed.shaped h.regular).asTarget h.same

/-! Patterns. -/

def Pattern.isSequence : Pattern → Bool
  | .sequence _ => true
  | _ => false

/-- The patterns right inside of one. -/
def Pattern.inner : Pattern → List Pattern
  | .sequence patterns | .or patterns => patterns
  | .mapping items _ => items.map (·.pattern)
  | .cls _ patterns keywords => patterns ++ keywords.map (·.pattern)
  | .bind pattern _ => [pattern]
  | .value _ | .singleton _ | .star _ | .wildcard | .capture _ => []

/-- The expressions of the pattern itself: a value, keys or a class. -/
def Pattern.ownExprs : Pattern → List Expr
  | .value e | .cls e _ _ => [e]
  | .mapping items _ => items.map (·.key)
  | _ => []

/-- The names that the pattern itself writes. -/
def Pattern.ownNames : Pattern → List String
  | .mapping _ name | .star name => name.toList
  | .cls _ _ keywords => keywords.map (·.attr)
  | .capture name | .bind _ name => [name]
  | _ => []

/-- The rule for a pattern. -/
def Pattern.Fits : Pattern → Prop
  | .mapping items _ => (items.map (·.key)).length = (items.map (·.pattern)).length
  | .cls _ _ keywords => (keywords.map (·.attr)).length = (keywords.map (·.pattern)).length
  | .bind pattern name => (Pattern.bind pattern name).ownNames ≠ []
  | .or patterns => 2 ≤ patterns.length
  | _ => True

/-- The pattern and all inside of it keep their rules, and only right inside of a sequence there is a
star. -/
inductive Pattern.Shaped : Pattern → Prop
  | intro {p : Pattern} (fits : p.Fits) (alone : p.isSequence = true ∨ ∀ q ∈ p.inner, q.isStar = false)
    (names : ∀ id ∈ p.ownNames, IsIdentifier id) (exprs : ∀ e ∈ p.ownExprs, e.Shaped .operand)
    (inner : ∀ q ∈ p.inner, Shaped q) : Shaped p

theorem Pattern.Formed.shaped {p : Pattern} (h : p.Formed .source) : p.Shaped := by
  induction h with
  | value h => exact ⟨trivial, .inr nofun, nofun, List.forall_mem_singleton.2 (Expr.Formed.shaped h), nofun⟩
  | dotted h => exact ⟨trivial, .inr nofun, nofun, List.forall_mem_singleton.2 (Expr.Formed.shaped h), nofun⟩
  | singleton | wildcard => exact ⟨trivial, .inr nofun, nofun, nofun, nofun⟩
  | sequence _ h => exact ⟨trivial, .inl rfl, nofun, nofun, h⟩
  | mapping keys _ binds alone h =>
    refine ⟨by simp [Pattern.Fits], .inr (List.forall_mem_map.2 alone), fun id hid => ?_, ?_,
      List.forall_mem_map.2 h⟩
    · exact (binds id (Option.mem_toList.1 hid)).identifier
    · exact List.forall_mem_map.2 fun i hi => Expr.Formed.shaped (keys i hi)
  | cls head _ names _ alone keywordsAlone hp hk =>
    refine ⟨by simp [Pattern.Fits], .inr ?_, List.forall_mem_map.2 names,
      List.forall_mem_singleton.2 (Expr.Formed.shaped head), ?_⟩
    · exact List.forall_mem_append.2 ⟨alone, List.forall_mem_map.2 keywordsAlone⟩
    · exact List.forall_mem_append.2 ⟨hp, List.forall_mem_map.2 hk⟩
  | star binds =>
    refine ⟨trivial, .inr nofun, fun id hid => ?_, nofun, nofun⟩
    exact (binds id (Option.mem_toList.1 hid)).identifier
  | capture binds => exact ⟨trivial, .inr nofun, List.forall_mem_singleton.2 binds.identifier, nofun, nofun⟩
  | bind _ binds alone h =>
    exact ⟨List.cons_ne_nil _ _, .inr (List.forall_mem_singleton.2 alone),
      List.forall_mem_singleton.2 binds.identifier, nofun, List.forall_mem_singleton.2 h⟩
  | or _ _ _ alone hf hs hr =>
    refine ⟨by simp [Pattern.Fits], .inr alone, nofun, nofun, ?_⟩
    exact List.forall_mem_cons.2 ⟨hf, List.forall_mem_cons.2 ⟨hs, hr⟩⟩

/-! Statements. -/

/-- The expressions of the statement itself, without its blocks and patterns. -/
def Stmt.ownExprs : Stmt → List Expr
  | .functionDef _ params _ decorators returns _ =>
    decorators ++ params.flatMap (·.exprs) ++ returns.toList
  | .classDef _ bases keywords _ decorators => decorators ++ bases ++ keywords.map (·.value)
  | .ret value => value.toList
  | .delete targets => targets
  | .assign targets value => value :: targets
  | .augAssign target _ value => [target, value]
  | .annAssign target annotation value => target :: annotation :: value.toList
  | .forLoop target iter _ _ _ => [target, iter]
  | .whileLoop test _ _ | .branch test _ _ => [test]
  | .withBlock items _ _ => items.flatMap fun i => i.context :: i.vars.toList
  | .raise exc cause => exc.toList ++ cause.toList
  | .tryBlock _ handlers _ _ => handlers.filterMap (·.type)
  | .assert test msg => test :: msg.toList
  | .matchBlock subject cases => subject :: cases.filterMap (·.guard)
  | .expr value => [value]
  | .imports _ | .importFrom _ _ _ | .global _ | .nonlocal _ | .pass | .breakLoop | .continueLoop => []

/-- The names that the statement itself writes, without those of modules. -/
def Stmt.ownNames : Stmt → List String
  | .functionDef name params _ _ _ _ => name :: params.filterMap (·.name?)
  | .classDef name _ keywords _ _ => name :: keywords.filterMap (·.arg)
  | .tryBlock _ handlers _ _ => handlers.filterMap (·.name)
  | .global names | .nonlocal names => names
  | _ => []

def Stmt.patterns : Stmt → List Pattern
  | .matchBlock _ cases => cases.map (·.pattern)
  | _ => []

/-- The rule for a statement. -/
def Stmt.Fits : Stmt → Prop
  | .tryBlock _ handlers orelse finalbody =>
    (handlers ≠ [] ∨ finalbody ≠ []) ∧ (orelse ≠ [] → handlers ≠ [])
  | .imports names => names ≠ [] ∧ ∀ a ∈ names, a.Formed
  | .importFrom module names level => (module.isSome = true ∨ 0 < level) ∧
    (∀ s ∈ module, IsDottedName s) ∧ names ≠ [] ∧ ∀ a ∈ names, a.Formed
  | .global names | .nonlocal names => names ≠ []
  | .matchBlock _ cases => cases ≠ []
  | _ => True

/-- The statement and all inside of it keep their rules. -/
inductive Stmt.Shaped : Stmt → Prop
  | intro {s : Stmt} (fits : s.Fits) (names : ∀ id ∈ s.ownNames, IsIdentifier id)
    (exprs : ∀ e ∈ s.ownExprs, e.Shaped .operand)
    (patterns : ∀ p ∈ s.patterns, p.Shaped ∧ p.isStar = false)
    (blocks : ∀ b ∈ s.bodies ++ s.tails, ∀ t ∈ b, Shaped t) : Shaped s

/-- A statement without blocks and patterns keeps its rules if it does so itself. -/
theorem Stmt.Shaped.simple {s : Stmt} (fits : s.Fits) (names : ∀ id ∈ s.ownNames, IsIdentifier id)
    (exprs : ∀ e ∈ s.ownExprs, e.Shaped .operand) (patterns : s.patterns = [])
    (blocks : s.bodies ++ s.tails = []) : s.Shaped :=
  ⟨fits, names, exprs, by simp [patterns], by simp [blocks]⟩

theorem shaped_option {o : Option Expr} (h : ∀ e ∈ o, e.Formed) : ∀ e ∈ o.toList, e.Shaped .operand :=
  fun e he => Expr.Formed.shaped (h e (Option.mem_toList.1 he))

theorem shaped_list {es : List Expr} (h : ∀ e ∈ es, e.Formed) : ∀ e ∈ es, e.Shaped .operand :=
  fun e he => Expr.Formed.shaped (h e he)

theorem shaped_params {params : List Param} (h : ∀ p ∈ params, p.Formed .source) :
    ∀ e ∈ params.flatMap (·.exprs), e.Shaped .operand := by
  intro e he
  obtain ⟨p, member, he⟩ := List.mem_flatMap.1 he
  rcases List.mem_append.1 he with he | he
  · exact shaped_option (Param.Formed.annotation (h p member)) e he
  · exact shaped_option (h p member).default e he

theorem shaped_withItems {items : List WithItem} (h : ∀ i ∈ items, i.Formed .source) :
    ∀ e ∈ items.flatMap fun i => i.context :: i.vars.toList, e.Shaped .operand := by
  intro e he
  obtain ⟨i, member, he⟩ := List.mem_flatMap.1 he
  rcases List.mem_cons.1 he with rfl | he
  · exact Expr.Formed.shaped (h i member).context
  · obtain ⟨head, target⟩ := (h i member).vars e (Option.mem_toList.1 he)
    exact target.shaped

theorem Stmt.Formed.shaped {s : Stmt} (h : s.Formed .source) : s.Shaped := by
  have nothing {α : Type} {p : α → Prop} : ∀ x ∈ ([] : List α), p x := List.forall_mem_nil p
  induction h with
  | functionDef binds hp _ hd hr hb =>
    refine ⟨trivial, List.forall_mem_cons.2 ⟨binds.identifier, fun id hid => ?_⟩, ?_, nothing,
      List.forall_mem_singleton.2 hb⟩
    · obtain ⟨p, member, found⟩ := List.mem_filterMap.1 hid
      exact ((hp p member).binds id found).identifier
    · exact List.forall_mem_append.2 ⟨List.forall_mem_append.2 ⟨shaped_list hd, shaped_params hp⟩,
        shaped_option hr⟩
  | classDef head _ hd hb =>
    obtain ⟨-, arguments, parts⟩ := isShaped_of_regular head .operand
    have parts := List.forall_mem_cons.1 (forall_operands.1 parts)
    obtain ⟨-, name, -⟩ := parts.1
    refine ⟨trivial, List.forall_mem_cons.2 ⟨List.forall_mem_singleton.1 name, arguments⟩, ?_, nothing,
      List.forall_mem_singleton.2 hb⟩
    rw [Stmt.ownExprs, List.append_assoc]
    exact List.forall_mem_append.2 ⟨shaped_list hd, parts.2⟩
  | ret h => exact .simple trivial nothing (shaped_option h) rfl rfl
  | delete hh ht => exact .simple trivial nothing (shaped_of_asTargets (shaped_list hh) ht) rfl rfl
  | assign _ hh ht hv =>
    have targets := shaped_of_asTargets (shaped_list hh) ht
    exact .simple trivial nothing (List.forall_mem_cons.2 ⟨Expr.Formed.shaped hv, targets⟩) rfl rfl
  | augAssign ht hv =>
    have value := List.forall_mem_singleton.2 (Expr.Formed.shaped hv)
    exact .simple trivial nothing (List.forall_mem_cons.2 ⟨ht.shaped, value⟩) rfl rfl
  | annAssign ht ha hv =>
    have rest := List.forall_mem_cons.2 ⟨Expr.Formed.shaped ha, shaped_option hv⟩
    exact .simple trivial nothing (List.forall_mem_cons.2 ⟨ht.shaped, rest⟩) rfl rfl
  | forLoop ht hi _ _ hb ho =>
    have iter := List.forall_mem_singleton.2 (Expr.Formed.shaped hi)
    exact ⟨trivial, nothing, List.forall_mem_cons.2 ⟨ht.shaped, iter⟩, nothing,
      List.forall_mem_cons.2 ⟨hb, List.forall_mem_singleton.2 ho⟩⟩
  | whileLoop ht _ _ hb ho | branch ht _ _ hb ho =>
    exact ⟨trivial, nothing, List.forall_mem_singleton.2 (Expr.Formed.shaped ht), nothing,
      List.forall_mem_cons.2 ⟨hb, List.forall_mem_singleton.2 ho⟩⟩
  | withBlock hi _ hb =>
    exact ⟨trivial, nothing, shaped_withItems hi, nothing, List.forall_mem_singleton.2 hb⟩
  | raise he hc =>
    exact .simple trivial nothing (List.forall_mem_append.2 ⟨shaped_option he, shaped_option hc⟩) rfl rfl
  | tryBlock _ types binds _ _ _ ends guarded hb hh ho hf =>
    refine ⟨⟨ends, guarded⟩, fun id hid => ?_, fun e he => ?_, nothing, ?_⟩
    · obtain ⟨h, member, found⟩ := List.mem_filterMap.1 hid
      exact (binds h member id found).identifier
    · obtain ⟨h, member, found⟩ := List.mem_filterMap.1 he
      exact Expr.Formed.shaped (types h member e found)
    · refine List.forall_mem_append.2 ⟨List.forall_mem_cons.2 ⟨hb, List.forall_mem_map.2 hh⟩, ?_⟩
      exact List.forall_mem_cons.2 ⟨ho, List.forall_mem_singleton.2 hf⟩
  | assert ht hm =>
    exact .simple trivial nothing (List.forall_mem_cons.2 ⟨Expr.Formed.shaped ht, shaped_option hm⟩) rfl rfl
  | imports h some => exact .simple ⟨some, h⟩ nothing nothing rfl rfl
  | importFrom hm h origin some => exact .simple ⟨origin, hm, some, h⟩ nothing nothing rfl rfl
  | global h some => exact .simple some (fun id hid => (h id hid).identifier) nothing rfl rfl
  | nonlocal h some => exact .simple some (fun id hid => (h id hid).identifier) nothing rfl rfl
  | matchBlock hs hp hg _ some alone hb =>
    refine ⟨some, nothing, List.forall_mem_cons.2 ⟨Expr.Formed.shaped hs, fun e he => ?_⟩, ?_, ?_⟩
    · obtain ⟨c, member, found⟩ := List.mem_filterMap.1 he
      exact Expr.Formed.shaped (hg c member e found)
    · exact List.forall_mem_map.2 fun c hc => ⟨(hp c hc).shaped, alone c hc⟩
    · exact List.forall_mem_append.2 ⟨List.forall_mem_map.2 hb, nothing⟩
  | expr h => exact .simple trivial nothing (List.forall_mem_singleton.2 (Expr.Formed.shaped h)) rfl rfl
  | pass | breakLoop | continueLoop => exact .simple trivial nothing nothing rfl rfl

/-- What evaluates to a success is one. -/
theorem exists_ok {ε α β : Type} {x : Except ε α} {f : α → β} {b : β} (h : x.toOption.map f = some b) :
    ∃ a, x = .ok a ∧ f a = b := by
  cases x with
  | error e => cases h
  | ok a => exact ⟨a, rfl, Option.some.inj h⟩

end Arbiter.Syntax
