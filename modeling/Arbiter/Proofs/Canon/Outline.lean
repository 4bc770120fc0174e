import Arbiter.Proofs.Canon.Placeholder
import Mathlib.Logic.Function.Basic

/-! The outline of an expression: its f-strings are calls of the ellipsis that hold the pieces, as the
tokens spell them out. Main statements: the outline of a regular expression is strictly regular and has
the tokens of the expression, and without `yield` the expression can be found from its outline. -/

namespace Arbiter.Syntax

mutual

def Expr.outline : Expr → Expr
  | .name id ctx => .name id ctx
  | .constant c => .constant c
  | .joinedStr parts => .call (.constant .ellipsis) (.yield none :: outlineParts parts) []
  | .attribute value attr ctx => .attribute value.outline attr ctx
  | .subscript value index ctx => .subscript value.outline index.outline ctx
  | .slice lower upper step =>
    .slice (outlineOption lower) (outlineOption upper) (outlineOption step)
  | .starred value ctx => .starred value.outline ctx
  | .tuple elts ctx => .tuple (outlines elts) ctx
  | .list elts ctx => .list (outlines elts) ctx
  | .set elts => .set (outlines elts)
  | .dict items => .dict (outlineDict items)
  | .binary left op right => .binary left.outline op right.outline
  | .unary op operand => .unary op operand.outline
  | .bool op values => .bool op (outlines values)
  | .compare left rest => .compare left.outline (outlineComparands rest)
  | .call func args keywords => .call func.outline (outlines args) (outlineKeywords keywords)
  | .ifElse test body orelse => .ifElse test.outline body.outline orelse.outline
  | .lambda params body => .lambda (outlineParams params) body.outline
  | .listComp elt generators => .listComp elt.outline (outlineGenerators generators)
  | .setComp elt generators => .setComp elt.outline (outlineGenerators generators)
  | .generatorExp elt generators => .generatorExp elt.outline (outlineGenerators generators)
  | .dictComp key value generators =>
    .dictComp key.outline value.outline (outlineGenerators generators)
  | .await value => .await value.outline
  | .yield value => .yield (outlineOption value)
  | .yieldFrom value => .yieldFrom value.outline
  | .named target value => .named target.outline value.outline

def outlines : List Expr → List Expr
  | [] => []
  | e :: es => e.outline :: outlines es

def outlineOption : Option Expr → Option Expr
  | none => none
  | some e => some e.outline

/-- A field is a condition between the names of its marks. -/
def outlineParts : List FStringPart → List Expr
  | [] => []
  | .literal s :: rest => .name s .load :: outlineParts rest
  | .formatted value conversion spec :: rest =>
    .ifElse (.name (conversionName conversion) .load) value.outline (.name (specName spec) .load) ::
      outlineParts rest

def outlineDict : List DictItem → List DictItem
  | [] => []
  | .entry key value :: rest => .entry key.outline value.outline :: outlineDict rest
  | .spread value :: rest => .spread value.outline :: outlineDict rest

def outlineComparands : List Comparand → List Comparand
  | [] => []
  | ⟨op, value⟩ :: rest => ⟨op, value.outline⟩ :: outlineComparands rest

def outlineKeywords : List Keyword → List Keyword
  | [] => []
  | ⟨arg, value⟩ :: rest => ⟨arg, value.outline⟩ :: outlineKeywords rest

def outlineGenerators : List Generator → List Generator
  | [] => []
  | ⟨target, iter, ifs, isAsync⟩ :: rest =>
    ⟨target.outline, iter.outline, outlines ifs, isAsync⟩ :: outlineGenerators rest

def outlineArgument : Argument → Argument
  | ⟨name, annotation⟩ => ⟨name, outlineOption annotation⟩

def outlineParams : List Param → List Param
  | [] => []
  | .plain arg default :: rest =>
    .plain (outlineArgument arg) (outlineOption default) :: outlineParams rest
  | .posOnlyMarker :: rest => .posOnlyMarker :: outlineParams rest
  | .varArgs none :: rest => .varArgs none :: outlineParams rest
  | .varArgs (some arg) :: rest => .varArgs (some (outlineArgument arg)) :: outlineParams rest
  | .kwArgs arg :: rest => .kwArgs (outlineArgument arg) :: outlineParams rest

end

/-! Outlines have the tokens of their expressions. -/

@[simp] theorem strength_outline (e : Expr) : e.outline.strength = e.strength := by
  cases e <;> rfl

theorem kindsWithin_outline (least : Nat) {e : Expr} (h : e.outline.kinds = e.kinds) :
    e.outline.kindsWithin least e.outline.kinds = e.kindsWithin least e.kinds := by
  simp only [Expr.kindsWithin, h, strength_outline]

mutual

theorem kinds_outline : ∀ e : Expr, e.outline.kinds = e.kinds
  | .name _ _ | .constant _ => rfl
  | .joinedStr parts => by
    have call : (Expr.joinedStr parts).outline.kinds =
        .op "..." :: .op "(" :: .op "(" :: .name "yield" :: .op ")" ::
          (kindsOfItems Strength.test (outlineParts parts) ++ []).flatMap (.op "," :: ·) ++ [.op ")"] :=
      rfl
    rw [call, List.append_nil, kindsOfParts_outline parts]
    rfl
  | .attribute value _ _ => by
    simp only [Expr.outline, Expr.kinds, kindsWithin_outline _ (kinds_outline value)]
  | .subscript value index _ => by
    have hv := kindsWithin_outline Strength.atom (kinds_outline value)
    have hi := kindsWithin_outline Strength.test (kinds_outline index)
    cases index with
    | tuple elts ctx =>
      have more := kindsOfItems_outline Strength.test elts
      cases elts <;> simp_all [Expr.outline, outlines, Expr.kinds]
    | _ => simp only [Expr.outline, Expr.kinds] at hi ⊢; simp only [hv, hi]
  | .slice lower upper step => by
    simp only [Expr.outline, Expr.kinds, optionKinds_outline]
  | .starred value _ => by
    simp only [Expr.outline, Expr.kinds, kindsWithin_outline _ (kinds_outline value)]
  | .tuple elts _ => by simp only [Expr.outline, Expr.kinds, kindsOfItems_outline]
  | .list elts _ => by simp only [Expr.outline, Expr.kinds, kindsOfItems_outline]
  | .set elts => by
    have same := kindsOfItems_outline Strength.test elts
    cases elts <;> simp_all [Expr.outline, outlines, Expr.kinds]
  | .dict items => by simp only [Expr.outline, Expr.kinds, dictKinds_outline]
  | .binary left _ right => by
    simp only [Expr.outline, Expr.kinds, kindsWithin_outline _ (kinds_outline left),
      kindsWithin_outline _ (kinds_outline right)]
  | .unary _ operand => by
    simp only [Expr.outline, Expr.kinds, kindsWithin_outline _ (kinds_outline operand)]
  | .bool op [] => rfl
  | .bool op (first :: rest) => by
    simp only [Expr.outline, outlines, Expr.kinds, kindsWithin_outline _ (kinds_outline first),
      kindsOfItems_outline]
  | .compare left rest => by
    simp only [Expr.outline, Expr.kinds, kindsWithin_outline _ (kinds_outline left),
      comparandKinds_outline]
  | .call func args keywords => by
    simp only [Expr.outline, Expr.kinds, kindsWithin_outline _ (kinds_outline func),
      kindsOfItems_outline, keywordKinds_outline]
  | .ifElse test body orelse => by
    simp only [Expr.outline, Expr.kinds, kindsWithin_outline _ (kinds_outline test),
      kindsWithin_outline _ (kinds_outline body), kindsWithin_outline _ (kinds_outline orelse)]
  | .lambda params body => by
    simp only [Expr.outline, Expr.kinds, kindsWithin_outline _ (kinds_outline body),
      paramKinds_outline]
  | .listComp elt generators | .setComp elt generators | .generatorExp elt generators => by
    simp only [Expr.outline, Expr.kinds, kindsWithin_outline _ (kinds_outline elt),
      generatorKinds_outline]
  | .dictComp key value generators => by
    simp only [Expr.outline, Expr.kinds, kindsWithin_outline _ (kinds_outline key),
      kindsWithin_outline _ (kinds_outline value), generatorKinds_outline]
  | .await value | .yieldFrom value => by
    simp only [Expr.outline, Expr.kinds, kindsWithin_outline _ (kinds_outline value)]
  | .yield value => by simp only [Expr.outline, Expr.kinds, optionKinds_outline]
  | .named target value => by
    simp only [Expr.outline, Expr.kinds, kindsWithin_outline _ (kinds_outline target),
      kindsWithin_outline _ (kinds_outline value)]

theorem kindsOfItems_outline (least : Nat) : ∀ es : List Expr,
    kindsOfItems least (outlines es) = kindsOfItems least es
  | [] => rfl
  | e :: es => by
    simp only [outlines, kindsOfItems, kindsWithin_outline _ (kinds_outline e),
      kindsOfItems_outline least es]

theorem optionKinds_outline (mark : List TokenKind) : ∀ o : Option Expr,
    optionKinds mark (outlineOption o) = optionKinds mark o
  | none => rfl
  | some e => by simp only [outlineOption, optionKinds, kindsWithin_outline _ (kinds_outline e)]

theorem kindsOfParts_outline : ∀ parts : List FStringPart,
    (kindsOfItems Strength.test (outlineParts parts)).flatMap (.op "," :: ·) = partKinds parts
  | [] => rfl
  | .literal s :: rest => by
    have piece : (Expr.name s .load).kindsWithin Strength.test (Expr.name s .load).kinds =
        [.name s] := rfl
    simp [outlineParts, kindsOfItems, partKinds, piece, kindsOfParts_outline rest]
  | .formatted value conversion spec :: rest => by
    have named (id : String) (least : Nat) (h : least ≤ Strength.atom) :
        (Expr.name id .load).kindsWithin least [TokenKind.name id] = [TokenKind.name id] :=
      if_neg (Nat.not_lt_of_le h)
    have loose : ∀ ks, (Expr.ifElse (.name (conversionName conversion) .load) value.outline
        (.name (specName spec) .load)).kindsWithin Strength.test ks = ks := fun _ => rfl
    simp [outlineParts, kindsOfItems, partKinds, loose, Expr.kinds, kindsOfParts_outline rest,
      kindsWithin_outline Strength.or (kinds_outline value), named _ Strength.or (by decide),
      named _ Strength.test (by decide)]

theorem dictKinds_outline : ∀ items : List DictItem,
    dictKinds (outlineDict items) = dictKinds items
  | [] => rfl
  | .entry key value :: rest => by
    simp only [outlineDict, dictKinds, kindsWithin_outline _ (kinds_outline key),
      kindsWithin_outline _ (kinds_outline value), dictKinds_outline rest]
  | .spread value :: rest => by
    simp only [outlineDict, dictKinds, kindsWithin_outline _ (kinds_outline value),
      dictKinds_outline rest]

theorem comparandKinds_outline : ∀ rest : List Comparand,
    comparandKinds (outlineComparands rest) = comparandKinds rest
  | [] => rfl
  | ⟨_, value⟩ :: rest => by
    simp only [outlineComparands, comparandKinds, kindsWithin_outline _ (kinds_outline value),
      comparandKinds_outline rest]

theorem keywordKinds_outline : ∀ keywords : List Keyword,
    keywordKinds (outlineKeywords keywords) = keywordKinds keywords
  | [] => rfl
  | ⟨none, value⟩ :: rest | ⟨some _, value⟩ :: rest => by
    simp only [outlineKeywords, keywordKinds, kindsWithin_outline _ (kinds_outline value),
      keywordKinds_outline rest]

theorem generatorKinds_outline : ∀ gens : List Generator,
    generatorKinds (outlineGenerators gens) = generatorKinds gens
  | [] => rfl
  | ⟨target, iter, ifs, _⟩ :: rest => by
    simp only [outlineGenerators, generatorKinds, kindsWithin_outline _ (kinds_outline target),
      kindsWithin_outline _ (kinds_outline iter), conditionKinds_outline ifs,
      generatorKinds_outline rest]

theorem conditionKinds_outline : ∀ ifs : List Expr,
    conditionKinds (outlines ifs) = conditionKinds ifs
  | [] => rfl
  | e :: es => by
    simp only [outlines, conditionKinds, kindsWithin_outline _ (kinds_outline e),
      conditionKinds_outline es]

theorem argumentKinds_outline : ∀ arg : Argument,
    argumentKinds (outlineArgument arg) = argumentKinds arg
  | ⟨_, annotation⟩ => by simp only [outlineArgument, argumentKinds, optionKinds_outline]

theorem paramKinds_outline : ∀ params : List Param,
    paramKinds (outlineParams params) = paramKinds params
  | [] => rfl
  | .plain arg default :: rest => by
    simp only [outlineParams, paramKinds, argumentKinds_outline arg, optionKinds_outline,
      paramKinds_outline rest]
  | .posOnlyMarker :: rest | .varArgs none :: rest => by
    simp only [outlineParams, paramKinds, paramKinds_outline rest]
  | .varArgs (some arg) :: rest | .kwArgs arg :: rest => by
    simp only [outlineParams, paramKinds, argumentKinds_outline arg, paramKinds_outline rest]

end

/-! Outlines of lists, and of targets. -/

theorem outlines_eq (es : List Expr) : outlines es = es.map Expr.outline := by
  induction es with
  | nil => rfl
  | cons e es ih => rw [outlines, ih, List.map_cons]

def FStringPart.outline : FStringPart → Expr
  | .literal s => .name s .load
  | .formatted value conversion spec =>
    .ifElse (.name (conversionName conversion) .load) value.outline (.name (specName spec) .load)

theorem outlineParts_eq (parts : List FStringPart) :
    outlineParts parts = parts.map FStringPart.outline := by
  induction parts with
  | nil => rfl
  | cons part parts ih => cases part <;> rw [outlineParts, ih] <;> rfl

def DictItem.outline : DictItem → DictItem
  | .entry key value => .entry key.outline value.outline
  | .spread value => .spread value.outline

theorem outlineDict_eq (items : List DictItem) : outlineDict items = items.map DictItem.outline := by
  induction items with
  | nil => rfl
  | cons item items ih => cases item <;> rw [outlineDict, ih] <;> rfl

theorem outlineComparands_eq (rest : List Comparand) :
    outlineComparands rest = rest.map fun c => ⟨c.op, c.value.outline⟩ := by
  induction rest with
  | nil => rfl
  | cons c rest ih =>
    obtain ⟨op, value⟩ := c
    rw [outlineComparands, ih, List.map_cons]

theorem outlineKeywords_eq (keywords : List Keyword) :
    outlineKeywords keywords = keywords.map fun k => ⟨k.arg, k.value.outline⟩ := by
  induction keywords with
  | nil => rfl
  | cons k keywords ih =>
    obtain ⟨arg, value⟩ := k
    rw [outlineKeywords, ih, List.map_cons]

theorem outlineGenerators_ne_nil {gens : List Generator} (h : gens ≠ []) :
    outlineGenerators gens ≠ [] := by
  cases gens with
  | nil => exact h
  | cons c gens =>
    obtain ⟨target, iter, ifs, isAsync⟩ := c
    exact List.cons_ne_nil _ _

def Param.outline : Param → Param
  | .plain arg default => .plain (outlineArgument arg) (outlineOption default)
  | .posOnlyMarker => .posOnlyMarker
  | .varArgs none => .varArgs none
  | .varArgs (some arg) => .varArgs (some (outlineArgument arg))
  | .kwArgs arg => .kwArgs (outlineArgument arg)

theorem outlineParams_eq (params : List Param) : outlineParams params = params.map Param.outline := by
  induction params with
  | nil => rfl
  | cons p params ih =>
    match p with
    | .plain _ _ | .posOnlyMarker | .varArgs none | .varArgs (some _) | .kwArgs _ =>
      rw [outlineParams, ih]
      rfl

mutual

theorem asTarget_outline {ctx : Context} : ∀ (e : Expr) {t : Expr}, e.asTarget? ctx = some t →
    e.outline.asTarget? ctx = some t.outline
  | .name .., _, rfl | .attribute .., _, rfl | .subscript .., _, rfl => rfl
  | .starred value _, t, h => by
    obtain ⟨v, found, rfl⟩ := Option.map_eq_some_iff.1 h
    simp only [Expr.outline, Expr.asTarget?, asTarget_outline value found, Option.map_some]
  | .tuple elts _, t, h | .list elts _, t, h => by
    obtain ⟨ts, found, rfl⟩ := Option.map_eq_some_iff.1 h
    simp only [Expr.outline, Expr.asTarget?, asTargets_outline elts found, Option.map_some]

theorem asTargets_outline {ctx : Context} : ∀ (es : List Expr) {ts : List Expr},
    asTargets? ctx es = some ts → asTargets? ctx (outlines es) = some (outlines ts)
  | [], _, rfl => rfl
  | e :: es, ts, h => by
    simp only [asTargets?, Option.bind_eq_bind, Option.bind_eq_some_iff, Option.pure_def] at h
    obtain ⟨t, first, ts', rest, same⟩ := h
    cases same
    simp only [outlines, asTargets?, asTarget_outline e first, asTargets_outline es rest]
    rfl

end

/-! Outlines are strictly regular. -/

def Part.outline : Part → Part
  | .expr e => .expr e.outline
  | .item e => .item e.outline
  | .entry e => .entry e.outline
  | .index e => .index e.outline
  | .clauses gens => .clauses (outlineGenerators gens)

section

variable {l : Leeway} {elts : List Expr}

theorem regular_outlines {part : Expr → Part}
    (h : ∀ e ∈ elts, Regular .strict (part e.outline)) :
    ∀ e ∈ outlines elts, Regular .strict (part e) := by
  rw [outlines_eq]
  exact List.forall_mem_map.2 h

theorem regular_outlineOption {o : Option Expr}
    (h : ∀ e ∈ o, Regular .strict (.expr e.outline)) :
    ∀ e ∈ outlineOption o, Regular .strict (.expr e) := by
  cases o with
  | none => nofun
  | some e =>
    rintro _ ⟨⟩
    exact h e rfl

theorem regular_outlineParts {parts : List FStringPart}
    (pieces : ∀ s, .literal s ∈ parts → IsIdentifier s)
    (values : ∀ value conversion spec, .formatted value conversion spec ∈ parts →
      Regular .strict (.expr value.outline)) :
    ∀ e ∈ outlineParts parts, Regular .strict (.expr e) := by
  rw [outlineParts_eq]
  refine List.forall_mem_map.2 fun part member => ?_
  cases part with
  | literal s => exact .name (pieces s member) trivial
  | formatted value conversion spec =>
    exact .ifElse (.name (isIdentifier_markName _) trivial) (values value conversion spec member)
      (.name (isIdentifier_markName _) trivial)

theorem regular_outline (stars : l.stars = false) (points : l.points = false)
    (pieces : ∀ s, l.piece s → IsIdentifier s) {part : Part} (h : Regular l part) :
    Regular .strict part.outline := by
  induction h with
  | name h _ => exact .name h trivial
  | number h => exact .number h
  | strings some spelled plain => exact .strings some spelled plain
  | word w => exact .word w
  | ellipsis => exact .ellipsis
  | joinedStr _ _ _ fit h =>
    have args := regular_outlineParts (fun s member => pieces s (fit s member)) h
    exact .call .ellipsis (Regular.items (List.forall_mem_cons.2 ⟨.yield rfl nofun, args⟩)) nofun nofun
  | strayed allowed => exact absurd (stars ▸ allowed) Bool.false_ne_true
  | @member value attr _ other ha hv =>
    have plain := other.resolve_left fun allowed => absurd (points ▸ allowed) Bool.false_ne_true
    have same : value.outline.takesPoint = value.takesPoint := by cases value <;> rfl
    exact .member hv (.inr (same.trans plain)) ha
  | subscript _ _ hv hi => exact .subscript hv hi
  | tuple _ h => exact .tuple (regular_outlines h)
  | list _ h => exact .list (regular_outlines h)
  | set some _ h => exact .set (by rw [outlines_eq]; simpa using some) (regular_outlines h)
  | dict _ h =>
    refine .dict ?_
    rw [outlineDict_eq]
    refine List.forall_mem_map.2 fun item member => ?_
    cases item with
    | entry key value =>
      have parts := h _ member
      exact List.forall_mem_cons.2 ⟨parts key List.mem_cons_self,
        List.forall_mem_singleton.2 (parts value (.tail _ List.mem_cons_self))⟩
    | spread value => exact List.forall_mem_singleton.2 (h _ member value List.mem_cons_self)
  | binary _ _ hl hr => exact .binary hl hr
  | unary _ h => exact .unary h
  | bool _ _ _ hf hs hr => exact .bool hf hs (regular_outlines hr)
  | compare some _ _ hl hr =>
    rw [Part.outline, Expr.outline, outlineComparands_eq]
    exact .compare (by simpa using some) hl (List.forall_mem_map.2 hr)
  | call _ _ _ names hf ha hk =>
    rw [Part.outline, Expr.outline, outlineKeywords_eq]
    exact .call hf (regular_outlines ha) (List.forall_mem_map.2 hk) (List.forall_mem_map.2 names)
  | ifElse _ _ _ ht hb ho => exact .ifElse ht hb ho
  | lambda simple _ _ defaults hb =>
    rw [Part.outline, Expr.outline, outlineParams_eq]
    refine .lambda (List.forall_mem_map.2 fun p hp => ?_) (List.forall_mem_map.2 fun p hp => ?_) hb
    · have plain := simple p hp
      match p with
      | .plain ⟨_, none⟩ _ | .varArgs (some ⟨_, none⟩) | .kwArgs ⟨_, none⟩ => exact plain
      | .posOnlyMarker | .varArgs none => exact plain
    · have default := defaults p hp
      match p with
      | .plain _ _ => exact regular_outlineOption default
      | .posOnlyMarker | .varArgs none | .varArgs (some _) | .kwArgs _ => nofun
  | listComp some _ _ he hg => exact .listComp (outlineGenerators_ne_nil some) he hg
  | setComp some _ _ he hg => exact .setComp (outlineGenerators_ne_nil some) he hg
  | generatorExp some _ _ he hg => exact .generatorExp (outlineGenerators_ne_nil some) he hg
  | dictComp some _ _ _ hk hv hg => exact .dictComp (outlineGenerators_ne_nil some) hk hv hg
  | await _ h => exact .await h
  | yield _ _ h => exact .yield rfl (regular_outlineOption h)
  | yieldFrom _ _ h => exact .yieldFrom rfl h
  | named hi _ _ hv => exact .named hi trivial hv
  | starred _ h => exact .starred h
  | item _ h => exact .item h
  | slice _ _ _ hl hu hs =>
    exact .slice (regular_outlineOption hl) (regular_outlineOption hu) (regular_outlineOption hs)
  | entry _ h => exact .entry h
  | noEntry => exact .noEntry
  | entries some _ h => exact .entries (by rw [outlines_eq]; simpa using some) (regular_outlines h)
  | @index e single _ h =>
    refine .index (fun elts ctx same => ?_) h
    cases e <;> cases same
    exact single _ _ rfl
  | noClause => exact .noClause
  | clause _ ht _ _ _ hh hi hc hg =>
    exact .clause hh (asTarget_outline _ ht) hi (regular_outlines hc) hg

end

end Arbiter.Syntax
