import Arbiter.Proofs.Parsing.Plain
import Arbiter.Proofs.Parsing.Yields

/-! The shapes of trees that come from parsing: expressions, patterns and statements. -/

namespace Arbiter.Syntax

/-- The constant that adjacent string literals form. -/
def stringConstant (pieces : List StringPiece) : Constant :=
  let text := " ".intercalate (pieces.map (·.text))
  if pieces.any (·.marks.contains 'b') then .bytes text else .str text

/-- A parameter of a `lambda`, which has no annotation. -/
def Param.IsPlain : Param → Prop
  | .plain arg _ | .varArgs (some arg) | .kwArgs arg => IsIdentifier arg.name ∧ arg.annotation = none
  | .posOnlyMarker | .varArgs none => True

theorem Param.IsPlain.isIdentifier {p : Param} (h : p.IsPlain) : ∀ id ∈ p.name?, IsIdentifier id := by
  match p with
  | .plain _ _ | .varArgs (some _) | .kwArgs _ =>
    rintro id ⟨⟩
    exact h.1
  | .posOnlyMarker | .varArgs none => nofun

theorem Param.IsPlain.annotation? {p : Param} (h : p.IsPlain) : p.annotation? = none := by
  match p with
  | .plain _ _ | .varArgs (some _) | .kwArgs _ => exact h.2
  | .posOnlyMarker | .varArgs none => rfl

/-- A part of an expression. -/
inductive Part
  | expr (e : Expr)
  /-- An item of a display or an argument of a call, which may have a star. -/
  | item (e : Expr)
  /-- A part of an index, which may be a slice. -/
  | entry (e : Expr)
  | index (e : Expr)
  | clauses (generators : List Generator)

def FStringPart.isLiteral : FStringPart → Bool
  | .literal _ => true
  | .formatted .. => false

/-- No two literal pieces of an f-string follow one another. -/
def AreApart (parts : List FStringPart) : Prop :=
  parts.IsChain fun p q => ¬(p.isLiteral = true ∧ q.isLiteral = true)

/-- What a tree may hold that its text does not keep. -/
structure Leeway where
  /-- A star may stand at any expression, not only at items of displays and at arguments. -/
  stars : Bool
  /-- The f-strings that there may be. -/
  fields : List FStringPart → Prop
  /-- There may be members of any number. -/
  points : Bool
  yields : Bool
  /-- What may be a name, and what a literal piece of an f-string. -/
  name : String → Prop
  piece : String → Prop

/-- What a tree may hold that comes from a source. -/
def Leeway.source : Leeway := ⟨true, AreApart, true, true, fun _ => True, fun _ => True⟩

/-- The text keeps all that the tree says. -/
def Leeway.strict : Leeway := ⟨false, fun _ => False, false, true, fun _ => True, fun _ => True⟩

/-- A format text, which ends at the first closing brace that is not of a pair of its own. -/
def IsFormat (s : String) : Prop :=
  ∀ rest, specLength? 0 (s.toList ++ '\x7d' :: rest) = some s.toList.length

/-- A part put together as the grammar has it, with slices and bare tuples only where its text has
them, too. -/
inductive Regular (l : Leeway) : Part → Prop
  | name {id : String} (h : IsIdentifier id) (fits : l.name id) :
    Regular l (.expr (.name id .load))
  | number {text : String} (h : Spells text (.number text)) :
    Regular l (.expr (.constant (numberConstant text)))
  | strings {pieces : List StringPiece} (some : pieces ≠ [])
    (spelled : ∀ p ∈ pieces, Spells p.text (.string p.text))
    (plain : ∀ p ∈ pieces, p.isFString = false) : Regular l (.expr (.constant (stringConstant pieces)))
  | word (w : WordConstant) : Regular l (.expr (.constant w))
  | ellipsis : Regular l (.expr (.constant .ellipsis))
  | joinedStr {parts : List FStringPart} (allowed : l.fields parts)
    (values : ∀ value conversion spec, .formatted value conversion spec ∈ parts →
      Regular l (.expr value))
    (marks : ∀ value conversion spec, .formatted value conversion spec ∈ parts →
      conversion ≠ some '=' ∧ ∀ s ∈ spec, IsFormat s)
    (pieces : ∀ s, .literal s ∈ parts → l.piece s) : Regular l (.expr (.joinedStr parts))
  | member {value : Expr} {attr : String} (hv : Regular l (.expr value))
    (other : l.points = true ∨ value.takesPoint = false) (ha : IsIdentifier attr) :
    Regular l (.expr (.attribute value attr .load))
  | subscript {value index : Expr} (hv : Regular l (.expr value)) (hi : Regular l (.index index)) :
    Regular l (.expr (.subscript value index .load))
  | tuple {elts : List Expr} (h : ∀ e ∈ elts, Regular l (.item e)) : Regular l (.expr (.tuple elts .load))
  | list {elts : List Expr} (h : ∀ e ∈ elts, Regular l (.item e)) : Regular l (.expr (.list elts .load))
  | set {elts : List Expr} (some : elts ≠ []) (h : ∀ e ∈ elts, Regular l (.item e)) :
    Regular l (.expr (.set elts))
  | dict {items : List DictItem} (h : ∀ item ∈ items, ∀ e ∈ item.parts, Regular l (.expr e)) :
    Regular l (.expr (.dict items))
  | binary {left right : Expr} {o : BinaryOp} (hl : Regular l (.expr left))
    (hr : Regular l (.expr right)) : Regular l (.expr (.binary left o right))
  | unary {operand : Expr} {o : UnaryOp} (h : Regular l (.expr operand)) :
    Regular l (.expr (.unary o operand))
  | bool {o : BoolOp} {first second : Expr} {rest : List Expr} (hf : Regular l (.expr first))
    (hs : Regular l (.expr second)) (hr : ∀ e ∈ rest, Regular l (.expr e)) :
    Regular l (.expr (.bool o (first :: second :: rest)))
  | compare {left : Expr} {rest : List Comparand} (some : rest ≠ []) (hl : Regular l (.expr left))
    (hr : ∀ c ∈ rest, Regular l (.expr c.value)) : Regular l (.expr (.compare left rest))
  | call {func : Expr} {args : List Expr} {keywords : List Keyword} (hf : Regular l (.expr func))
    (ha : ∀ e ∈ args, Regular l (.item e)) (hk : ∀ k ∈ keywords, Regular l (.expr k.value))
    (names : ∀ k ∈ keywords, ∀ arg ∈ k.arg, IsIdentifier arg) :
    Regular l (.expr (.call func args keywords))
  | ifElse {test body orelse : Expr} (ht : Regular l (.expr test)) (hb : Regular l (.expr body))
    (ho : Regular l (.expr orelse)) : Regular l (.expr (.ifElse test body orelse))
  | lambda {params : List Param} {body : Expr} (plain : ∀ p ∈ params, p.IsPlain)
    (defaults : ∀ p ∈ params, ∀ d ∈ p.default?, Regular l (.expr d)) (hb : Regular l (.expr body)) :
    Regular l (.expr (.lambda params body))
  | listComp {elt : Expr} {gens : List Generator} (some : gens ≠ []) (he : Regular l (.expr elt))
    (hg : Regular l (.clauses gens)) : Regular l (.expr (.listComp elt gens))
  | setComp {elt : Expr} {gens : List Generator} (some : gens ≠ []) (he : Regular l (.expr elt))
    (hg : Regular l (.clauses gens)) : Regular l (.expr (.setComp elt gens))
  | generatorExp {elt : Expr} {gens : List Generator} (some : gens ≠ []) (he : Regular l (.expr elt))
    (hg : Regular l (.clauses gens)) : Regular l (.expr (.generatorExp elt gens))
  | dictComp {key value : Expr} {gens : List Generator} (some : gens ≠ [])
    (hk : Regular l (.expr key)) (hv : Regular l (.expr value)) (hg : Regular l (.clauses gens)) :
    Regular l (.expr (.dictComp key value gens))
  | await {value : Expr} (h : Regular l (.expr value)) : Regular l (.expr (.await value))
  | yield {value : Option Expr} (allowed : l.yields = true) (h : ∀ e ∈ value, Regular l (.expr e)) :
    Regular l (.expr (.yield value))
  | yieldFrom {value : Expr} (allowed : l.yields = true) (h : Regular l (.expr value)) :
    Regular l (.expr (.yieldFrom value))
  | named {id : String} {value : Expr} (hi : IsIdentifier id) (fits : l.name id)
    (hv : Regular l (.expr value)) : Regular l (.expr (.named (.name id .store) value))
  | strayed {value : Expr} (allowed : l.stars = true) (h : Regular l (.expr value)) :
    Regular l (.expr (.starred value .load))
  | starred {value : Expr} (h : Regular l (.expr value)) : Regular l (.item (.starred value .load))
  | item {e : Expr} (h : Regular l (.expr e)) : Regular l (.item e)
  | slice {lower upper step : Option Expr} (hl : ∀ e ∈ lower, Regular l (.expr e))
    (hu : ∀ e ∈ upper, Regular l (.expr e)) (hs : ∀ e ∈ step, Regular l (.expr e)) :
    Regular l (.entry (.slice lower upper step))
  | entry {e : Expr} (h : Regular l (.item e)) : Regular l (.entry e)
  | noEntry : Regular l (.index (.tuple [] .load))
  | entries {elts : List Expr} (some : elts ≠ []) (h : ∀ e ∈ elts, Regular l (.entry e)) :
    Regular l (.index (.tuple elts .load))
  | index {e : Expr} (single : ∀ elts ctx, e ≠ .tuple elts ctx) (h : Regular l (.entry e)) :
    Regular l (.index e)
  | noClause : Regular l (.clauses [])
  | clause {head target iter : Expr} {ifs : List Expr} {isAsync : Bool} {gens : List Generator}
    (hh : Regular l (.expr head)) (ht : head.asTarget? .store = some target)
    (hi : Regular l (.expr iter)) (hc : ∀ e ∈ ifs, Regular l (.expr e)) (hg : Regular l (.clauses gens)) :
    Regular l (.clauses (⟨target, iter, ifs, isAsync⟩ :: gens))

namespace Regular

variable {l : Leeway}

/-- A tuple loses its brackets where it is an index. -/
theorem index_of_entry {e : Expr} (h : Regular l (.entry e)) : Regular l (.index e) := by
  by_cases tuple : ∃ elts ctx, e = .tuple elts ctx
  · obtain ⟨elts, ctx, rfl⟩ := tuple
    cases h with
    | entry h =>
      cases h with
      | item h =>
        cases h with
        | tuple h =>
          by_cases none : elts = []
          · subst none
            exact .noEntry
          · exact .entries none fun x hx => .entry (h x hx)
  · exact .index (fun elts ctx same => tuple ⟨elts, ctx, same⟩) h

theorem items {elts : List Expr} (h : ∀ e ∈ elts, Regular l (.expr e)) :
    ∀ e ∈ elts, Regular l (.item e) := fun e he => .item (h e he)

/-- An item without a star is an expression. -/
theorem expr_of_item {e : Expr} (h : Regular l (.item e)) (plain : e.isPlain false = true) :
    Regular l (.expr e) := by
  cases h with
  | starred hv => cases plain
  | item he => exact he

end Regular

/-! Trees from a source. As far as one is plain, its text keeps all that it says. -/

/-- The expression is put together as the grammar has it. -/
abbrev Expr.Formed (e : Expr) : Prop := Regular .source (.expr e)

/-- The same of what may be a slice. -/
abbrev Expr.FormedEntry (e : Expr) : Prop := Regular .source (.entry e)

/-- The same of an index. -/
abbrev Expr.FormedIndex (e : Expr) : Prop := Regular .source (.index e)

abbrev FormedClauses (gens : List Generator) : Prop := Regular .source (.clauses gens)

/-- The part keeps to the strict grammar as far as it is plain. -/
def Part.IsStrict : Part → Prop
  | .expr e | .item e => e.isPlain true = true → Regular .strict (.item e)
  | .entry e => e.isPlain true = true → Regular .strict (.entry e)
  | .index e => e.isPlain false = true → Regular .strict (.index e)
  | .clauses gens => generatorsPlain gens = true → Regular .strict (.clauses gens)

theorem Part.IsStrict.expr {e : Expr} (h : (Part.expr e).IsStrict) (plain : e.isPlain false = true) :
    Regular .strict (.expr e) :=
  (h (isPlain_true plain)).expr_of_item plain

theorem isStrict_of_regular {part : Part} (h : Regular .source part) : part.IsStrict := by
  induction h with
  | name h => exact fun _ => .item (.name h trivial)
  | number h => exact fun _ => .item (.number h)
  | strings some spelled plain => exact fun _ => .item (.strings some spelled plain)
  | word w => exact fun _ => .item (.word w)
  | ellipsis => exact fun _ => .item .ellipsis
  | joinedStr => exact fun plain => nomatch plain
  | member _ _ ha hv =>
    intro plain
    simp only [Expr.isPlain, Bool.and_eq_true, Bool.not_eq_true'] at plain
    exact .item (.member (hv.expr plain.2) (.inr (Expr.takesPoint_of_isNumber plain.1)) ha)
  | subscript _ _ hv hi =>
    intro plain
    simp only [Expr.isPlain, Bool.and_eq_true] at plain
    exact .item (.subscript (hv.expr plain.1) (hi plain.2))
  | tuple _ h => exact fun plain => .item (.tuple fun e he => h e he (allPlain_iff.1 plain e he))
  | list _ h => exact fun plain => .item (.list fun e he => h e he (allPlain_iff.1 plain e he))
  | set some _ h =>
    exact fun plain => .item (.set some fun e he => h e he (allPlain_iff.1 plain e he))
  | dict _ h =>
    exact fun plain => .item (.dict fun item hi e he =>
      (h item hi e he).expr (dictPlain_iff.1 plain item hi e he))
  | binary _ _ hl hr =>
    intro plain
    simp only [Expr.isPlain, Bool.and_eq_true] at plain
    exact .item (.binary (hl.expr plain.1) (hr.expr plain.2))
  | unary _ h => exact fun plain => .item (.unary (h.expr plain))
  | bool _ _ _ hf hs hr =>
    intro plain
    simp only [Expr.isPlain, allPlain, Bool.and_eq_true] at plain
    exact .item (.bool (hf.expr plain.1) (hs.expr plain.2.1) fun e he =>
      (hr e he).expr (allPlain_iff.1 plain.2.2 e he))
  | compare some _ _ hl hr =>
    intro plain
    simp only [Expr.isPlain, Bool.and_eq_true] at plain
    exact .item (.compare some (hl.expr plain.1) fun c hc =>
      (hr c hc).expr (comparandsPlain_iff.1 plain.2 c hc))
  | call _ _ _ names hf ha hk =>
    intro plain
    simp only [Expr.isPlain, Bool.and_eq_true] at plain
    exact .item (.call (hf.expr plain.1.1) (fun e he => ha e he (allPlain_iff.1 plain.1.2 e he))
      (fun k hm => (hk k hm).expr (keywordsPlain_iff.1 plain.2 k hm)) names)
  | ifElse _ _ _ ht hb ho =>
    intro plain
    simp only [Expr.isPlain, Bool.and_eq_true] at plain
    exact .item (.ifElse (ht.expr plain.1.1) (hb.expr plain.1.2) (ho.expr plain.2))
  | lambda simple _ _ defaults hb =>
    intro plain
    simp only [Expr.isPlain, Bool.and_eq_true] at plain
    have values := plain_default_of_paramsPlain plain.1
    exact .item (.lambda simple (fun p hp d hd => (defaults p hp d hd).expr (values p hp d hd))
      (hb.expr plain.2))
  | listComp some _ _ he hg =>
    intro plain
    simp only [Expr.isPlain, Bool.and_eq_true] at plain
    exact .item (.listComp some (he.expr plain.1) (hg plain.2))
  | setComp some _ _ he hg =>
    intro plain
    simp only [Expr.isPlain, Bool.and_eq_true] at plain
    exact .item (.setComp some (he.expr plain.1) (hg plain.2))
  | generatorExp some _ _ he hg =>
    intro plain
    simp only [Expr.isPlain, Bool.and_eq_true] at plain
    exact .item (.generatorExp some (he.expr plain.1) (hg plain.2))
  | dictComp some _ _ _ hk hv hg =>
    intro plain
    simp only [Expr.isPlain, Bool.and_eq_true] at plain
    exact .item (.dictComp some (hk.expr plain.1.1) (hv.expr plain.1.2) (hg plain.2))
  | await _ h => exact fun plain => .item (.await (h.expr plain))
  | yield _ _ h =>
    exact fun plain => .item (.yield rfl fun e he => (h e he).expr (optionPlain_iff.1 plain e he))
  | yieldFrom _ _ h => exact fun plain => .item (.yieldFrom rfl (h.expr plain))
  | named hi _ _ hv =>
    intro plain
    simp only [Expr.isPlain, Bool.true_and] at plain
    exact .item (.named hi trivial (hv.expr plain))
  | strayed _ _ h => exact fun plain => .starred (h.expr plain)
  | starred _ h => exact fun plain => .starred (h.expr plain)
  | item _ h => exact h
  | slice _ _ _ hl hu hs =>
    intro plain
    simp only [Expr.isPlain, Bool.and_eq_true, optionPlain_iff] at plain
    exact .slice (fun e he => (hl e he).expr (plain.1.1 e he))
      (fun e he => (hu e he).expr (plain.1.2 e he)) fun e he => (hs e he).expr (plain.2 e he)
  | entry _ h => exact fun plain => .entry (h plain)
  | noEntry => exact fun _ => .noEntry
  | entries some _ h =>
    exact fun plain => .entries some fun e he => h e he (allPlain_iff.1 plain e he)
  | index single _ h => exact fun plain => .index single (h (isPlain_true plain))
  | noClause => exact fun _ => .noClause
  | @clause head target iter ifs _ gens _ ht _ _ _ hh hi hc hg =>
    intro plain
    simp only [generatorsPlain, Bool.and_eq_true, (alike_of_asTarget head ht).plain] at plain
    obtain ⟨⟨⟨first, iterPlain⟩, all⟩, rest⟩ := plain
    exact .clause (hh.expr first) ht (hi.expr iterPlain)
      (fun e he => (hc e he).expr (allPlain_iff.1 all e he)) (hg rest)

theorem Expr.Formed.regular {e : Expr} (h : e.Formed) (plain : e.isPlain false = true) :
    Regular .strict (.expr e) :=
  (isStrict_of_regular h).expr plain

end Arbiter.Syntax

namespace Arbiter.Syntax

/-- The name may be bound. -/
structure Leeway.Binds (l : Leeway) (id : String) : Prop where
  identifier : IsIdentifier id
  fits : l.name id

/-! Patterns. -/

def Constant.isLed : Constant → Bool
  | .int _ | .float _ | .complex _ | .str _ | .bytes _ => true
  | .bool _ | .none | .ellipsis => false

/-- The expression begins with a number, a string or a minus, outside of brackets. -/
def Expr.isLed : Expr → Bool
  | .constant c => c.isLed
  | .joinedStr _ => true
  | .unary o _ => o == .minus
  | .binary left o _ => left.isLed && o.leftStrength ≤ left.strength
  | .attribute value _ _ | .subscript value _ _ | .call value _ _ =>
    value.isLed && Strength.atom ≤ value.strength
  | _ => false

/-- A name and the attributes after it. -/
def dotted (id : String) (attrs : List String) : Expr :=
  attrs.foldl (fun e attr => .attribute e attr .load) (.name id .load)

/-- A pattern put together as the grammar has it: only in a sequence may one of its parts be a star. -/
inductive Pattern.Formed (l : Leeway) : Pattern → Prop
  | value {e : Expr} (h : Regular l (.expr e)) (led : e.isLed = true) (tight : Strength.sum ≤ e.strength) :
    Formed l (.value e)
  | dotted {id attr : String} {attrs : List String} (h : Regular l (.expr (dotted id (attr :: attrs)))) :
    Formed l (.value (dotted id (attr :: attrs)))
  | singleton (c : WordConstant) : Formed l (.singleton c)
  | sequence {patterns : List Pattern} (h : ∀ p ∈ patterns, Formed l p) : Formed l (.sequence patterns)
  | mapping {items : List MappingItem} {rest : Option String} (keys : ∀ i ∈ items, Regular l (.expr i.key))
    (h : ∀ i ∈ items, Formed l i.pattern) (binds : ∀ id ∈ rest, l.Binds id)
    (alone : ∀ i ∈ items, i.pattern.isStar = false) : Formed l (.mapping items rest)
  | cls {id : String} {attrs : List String} {patterns : List Pattern} {keywords : List KeywordPattern}
    (head : Regular l (.expr (dotted id attrs))) (hp : ∀ p ∈ patterns, Formed l p)
    (names : ∀ k ∈ keywords, IsIdentifier k.attr) (hk : ∀ k ∈ keywords, Formed l k.pattern)
    (alone : ∀ p ∈ patterns, p.isStar = false) (keywordsAlone : ∀ k ∈ keywords, k.pattern.isStar = false) :
    Formed l (.cls (dotted id attrs) patterns keywords)
  | star {rest : Option String} (binds : ∀ id ∈ rest, l.Binds id) : Formed l (.star rest)
  | wildcard : Formed l .wildcard
  | capture {id : String} (binds : l.Binds id) : Formed l (.capture id)
  | bind {p : Pattern} {id : String} (h : Formed l p) (binds : l.Binds id) (alone : p.isStar = false) :
    Formed l (.bind p id)
  | or {first second : Pattern} {rest : List Pattern} (hf : Formed l first) (hs : Formed l second)
    (hr : ∀ p ∈ rest, Formed l p) (alone : ∀ p ∈ first :: second :: rest, p.isStar = false) :
    Formed l (.or (first :: second :: rest))

/-! Statements. -/

structure Param.Formed (l : Leeway) (p : Param) : Prop where
  binds : ∀ id ∈ p.name?, l.Binds id
  annotation : ∀ e ∈ p.annotation?, Regular l (.expr e)
  default : ∀ e ∈ p.default?, Regular l (.expr e)

/-- What the expression `head` is as a target. -/
structure Targets (l : Leeway) (ctx : Context) (head target : Expr) : Prop where
  regular : Regular l (.expr head)
  same : head.asTarget? ctx = some target

/-- A name with points in it. -/
def IsDottedName (s : String) : Prop :=
  ∃ first rest, IsIdentifier first ∧ (∀ w ∈ rest, IsIdentifier w) ∧ s = ".".intercalate (first :: rest)

/-- What is imported: a name with points, or everything. -/
structure Alias.Formed (a : Alias) : Prop where
  name : IsDottedName a.name ∨ a.name = "*"
  asName : ∀ id ∈ a.asName, IsIdentifier id

structure WithItem.Formed (l : Leeway) (item : WithItem) : Prop where
  context : Regular l (.expr item.context)
  vars : ∀ t ∈ item.vars, ∃ head, Targets l .store head t

/-- A statement put together as the grammar has it. -/
inductive Stmt.Formed (l : Leeway) : Stmt → Prop
  | functionDef {id : String} {params : List Param} {body : List Stmt} {decorators : List Expr}
    {returns : Option Expr} {isAsync : Bool} (binds : l.Binds id) (hp : ∀ p ∈ params, p.Formed l)
    (hb : ∀ s ∈ body, Formed l s) (hd : ∀ e ∈ decorators, Regular l (.expr e))
    (hr : ∀ e ∈ returns, Regular l (.expr e)) :
    Formed l (.functionDef id params body decorators returns isAsync)
  | classDef {id : String} {bases : List Expr} {keywords : List Keyword} {body : List Stmt}
    {decorators : List Expr} (head : Regular l (.expr (.call (.name id .load) bases keywords)))
    (hb : ∀ s ∈ body, Formed l s) (hd : ∀ e ∈ decorators, Regular l (.expr e)) :
    Formed l (.classDef id bases keywords body decorators)
  | ret {value : Option Expr} (h : ∀ e ∈ value, Regular l (.expr e)) : Formed l (.ret value)
  | delete {heads targets : List Expr} (hh : ∀ e ∈ heads, Regular l (.expr e))
    (ht : asTargets? .del heads = some targets) : Formed l (.delete targets)
  | assign {heads targets : List Expr} {value : Expr} (nonempty : heads ≠ [])
    (hh : ∀ e ∈ heads, Regular l (.expr e)) (ht : asTargets? .store heads = some targets)
    (hv : Regular l (.expr value)) : Formed l (.assign targets value)
  | augAssign {head target value : Expr} {o : BinaryOp} (ht : Targets l .store head target)
    (hv : Regular l (.expr value)) : Formed l (.augAssign target o value)
  | annAssign {head target annotation : Expr} {value : Option Expr} (ht : Targets l .store head target)
    (ha : Regular l (.expr annotation)) (hv : ∀ e ∈ value, Regular l (.expr e)) :
    Formed l (.annAssign target annotation value)
  | forLoop {head target iter : Expr} {body orelse : List Stmt} {isAsync : Bool}
    (ht : Targets l .store head target) (hi : Regular l (.expr iter)) (hb : ∀ s ∈ body, Formed l s)
    (ho : ∀ s ∈ orelse, Formed l s) : Formed l (.forLoop target iter body orelse isAsync)
  | whileLoop {test : Expr} {body orelse : List Stmt} (ht : Regular l (.expr test))
    (hb : ∀ s ∈ body, Formed l s) (ho : ∀ s ∈ orelse, Formed l s) : Formed l (.whileLoop test body orelse)
  | branch {test : Expr} {body orelse : List Stmt} (ht : Regular l (.expr test))
    (hb : ∀ s ∈ body, Formed l s) (ho : ∀ s ∈ orelse, Formed l s) : Formed l (.branch test body orelse)
  | withBlock {items : List WithItem} {body : List Stmt} {isAsync : Bool} (hi : ∀ i ∈ items, i.Formed l)
    (hb : ∀ s ∈ body, Formed l s) : Formed l (.withBlock items body isAsync)
  | raise {exc cause : Option Expr} (he : ∀ e ∈ exc, Regular l (.expr e))
    (hc : ∀ e ∈ cause, Regular l (.expr e)) : Formed l (.raise exc cause)
  | tryBlock {body orelse finalbody : List Stmt} {handlers : List Handler} (hb : ∀ s ∈ body, Formed l s)
    (types : ∀ h ∈ handlers, ∀ e ∈ h.type, Regular l (.expr e))
    (binds : ∀ h ∈ handlers, ∀ id ∈ h.name, l.Binds id) (hh : ∀ h ∈ handlers, ∀ s ∈ h.body, Formed l s)
    (ho : ∀ s ∈ orelse, Formed l s) (hf : ∀ s ∈ finalbody, Formed l s)
    (ends : handlers ≠ [] ∨ finalbody ≠ []) (guarded : orelse ≠ [] → handlers ≠ []) :
    Formed l (.tryBlock body handlers orelse finalbody)
  | assert {test : Expr} {msg : Option Expr} (ht : Regular l (.expr test))
    (hm : ∀ e ∈ msg, Regular l (.expr e)) : Formed l (.assert test msg)
  | imports {names : List Alias} (h : ∀ a ∈ names, a.Formed) (some : names ≠ []) :
    Formed l (.imports names)
  | importFrom {module : Option String} {names : List Alias} {level : Nat}
    (hm : ∀ s ∈ module, IsDottedName s) (h : ∀ a ∈ names, a.Formed)
    (origin : module.isSome = true ∨ 0 < level) (some : names ≠ []) :
    Formed l (.importFrom module names level)
  | global {names : List String} (h : ∀ id ∈ names, l.Binds id) (some : names ≠ []) :
    Formed l (.global names)
  | nonlocal {names : List String} (h : ∀ id ∈ names, l.Binds id) (some : names ≠ []) :
    Formed l (.nonlocal names)
  | matchBlock {subject : Expr} {cases : List MatchCase} (hs : Regular l (.expr subject))
    (hp : ∀ c ∈ cases, c.pattern.Formed l) (hg : ∀ c ∈ cases, ∀ e ∈ c.guard, Regular l (.expr e))
    (hb : ∀ c ∈ cases, ∀ s ∈ c.body, Formed l s) (some : cases ≠ [])
    (alone : ∀ c ∈ cases, c.pattern.isStar = false) : Formed l (.matchBlock subject cases)
  | expr {value : Expr} (h : Regular l (.expr value)) : Formed l (.expr value)
  | pass : Formed l .pass
  | breakLoop : Formed l .breakLoop
  | continueLoop : Formed l .continueLoop

end Arbiter.Syntax
